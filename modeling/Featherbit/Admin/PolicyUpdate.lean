/-
  DOES A POLICY UPDATE TAKE EFFECT?

  `PUT /api/policies/{name}` overwrites the FIRST policy of that name; `compile_routes` binds a
  route to the LAST one.  With one policy of the name, or none, the two are the same.  Nothing
  checks that policy names are unique, and with two of them the update answers success while every
  route of the policy goes on running the old last one.

  `policy_update_takes_effect_iff` gives the exact condition, and that the routes of the other
  policies are never touched.
-/
import Featherbit.Admin.Handlers

namespace Featherbit

section Update

variable {σ : Type} {env : Env} {factory : PluginFactory σ}

/-- When an update of policy `name` with `body` reaches the routes: no route names the policy, or
    at most one policy has the name, or the last one compiles to what the body compiles to. -/
def UpdateReaches (env : Env) (factory : PluginFactory σ) (gw : GatewayConfig) (name : String)
    (body : PolicyConfig) : Prop :=
  (∀ route ∈ gw.routes, route.policy ≠ name) ∨
  gw.policies.countP (fun p => p.name = name) ≤ 1 ∨
  ∃ p graph, gw.policyAt name = some p ∧ compilePolicy env factory p = .ok graph ∧
    compilePolicy env factory { body with name := name } = .ok graph

/-- An update always has a candidate.  Its routes are the old ones; a name is bound to what it was
    bound to, but the updated name to the body when it had at most one policy. -/
theorem updatePolicy_candidate (gw : GatewayConfig) (name : String) (body : PolicyConfig) :
    ∃ candidate, (updatePolicy name body).candidate gw = .ok candidate ∧
      candidate.routes = gw.routes ∧ ∀ n, candidate.policyAt n =
        if n = name ∧ gw.policies.countP (fun p => p.name = name) ≤ 1 then
          some { body with name := name }
        else gw.policyAt n := by
  simp only [updatePolicy, Collection.upsert, policyRows]
  split
  · rename_i rows hrows
    refine ⟨_, rfl, rfl, fun n => ?_⟩
    exact Keyed.lookupLast_replaceFirst (x := { body with name := name }) hrows n
  · rename_i hnone
    refine ⟨_, rfl, rfl, fun n => ?_⟩
    have hzero : gw.policies.countP (fun p => p.name = name) = 0 := by
      rw [List.countP_eq_zero]
      simpa using Keyed.lookup_eq_none.mp (Keyed.replaceFirst_eq_none.mp hnone)
    show Keyed.lookupLast _ n (gw.policies ++ [_]) = _
    rw [Keyed.lookupLast_append, Keyed.lookupLast_cons, hzero]
    by_cases hn : n = name
    · simp [hn, Keyed.lookupLast, Keyed.lookup]
    · have hn' : ¬ name = n := fun h => hn h.symm
      simp [hn, hn', Keyed.lookupLast, Keyed.lookup, GatewayConfig.policyAt]

/-- **When a policy update takes effect.**  After a `PUT` that answers success, every route of the
    policy runs a graph compiled from the body iff the update reaches the routes; and every other
    route runs the graph it ran before. -/
theorem policy_update_takes_effect_iff {tables tables' : Tables σ} {name : String}
    {body : PolicyConfig} (hbefore : compileRoutes env factory tables.gateway = .ok tables.routes)
    (hput : (updatePolicy name body).handle env factory tables = (.updated, tables')) :
    ((∀ entry ∈ tables'.routes, entry.1.policy = name →
        compilePolicy env factory { body with name := name } = .ok entry.2) ↔
      UpdateReaches env factory tables.gateway name body) ∧
    ∀ entry ∈ tables'.routes, entry.1.policy ≠ name →
      entry ∈ tables.routes ∧ ∃ p, tables.gateway.policyAt entry.1.policy = some p ∧
        tables'.gateway.policyAt entry.1.policy = some p ∧
        compilePolicy env factory p = .ok entry.2 := by
  obtain ⟨candidate, hcand, hroutes, hat⟩ := updatePolicy_candidate tables.gateway name body
  have hbuild := Handler.build_of_handle hcand hput fun e h => nomatch h
  obtain ⟨hgw, -, hafter⟩ := buildTables_eq_ok.mp hbuild
  refine ⟨⟨fun htakes => ?_, fun hreach => ?_⟩, fun entry hentry hne => ?_⟩
  · -- a route of the policy that does not run the body shows what its name is bound to
    by_cases hsome : ∀ route ∈ tables.gateway.routes, route.policy ≠ name
    · exact Or.inl hsome
    by_cases hcount : tables.gateway.policies.countP (fun p => p.name = name) ≤ 1
    · exact Or.inr (Or.inl hcount)
    obtain ⟨route, hroute, hname⟩ : ∃ route ∈ tables.gateway.routes, route.policy = name := by
      simpa using hsome
    obtain ⟨graph, hmem⟩ := exists_entry hafter (hroutes ▸ hroute)
    obtain ⟨-, p, hp, -, hgraph⟩ := binds_of_mem hafter hmem
    rw [hat, hname, if_neg (fun h => hcount h.2)] at hp
    exact Or.inr (Or.inr ⟨p, graph, hp, hgraph, htakes (route, graph) hmem hname⟩)
  · intro entry hentry hname
    obtain ⟨hdeclared, p, hp, -, hgraph⟩ := binds_of_mem hafter hentry
    rw [hat, hname] at hp
    by_cases hcount : tables.gateway.policies.countP (fun p => p.name = name) ≤ 1
    · rw [if_pos ⟨rfl, hcount⟩] at hp
      rw [Option.some.inj hp]
      exact hgraph
    · rw [if_neg (fun h => hcount h.2)] at hp
      rcases hreach with hnone | hle | ⟨p', graph, hp', hold, hbody⟩
      · exact absurd hname (hnone entry.1 (hroutes ▸ hdeclared))
      · exact absurd hle hcount
      · obtain rfl : p = p' := Option.some.inj (hp.symm.trans hp')
        rw [hbody, ← hold]
        exact hgraph
  · obtain ⟨hdeclared, p, hp, -, hgraph⟩ := binds_of_mem hafter hentry
    have hp' := hp
    rw [hat, if_neg (fun h => hne h.1)] at hp'
    refine ⟨?_, p, hp', hgw ▸ hp, hgraph⟩
    obtain ⟨graph, hmem⟩ := exists_entry hbefore (hroutes ▸ hdeclared)
    obtain ⟨-, p0, hp0, -, hgraph0⟩ := binds_of_mem hbefore hmem
    obtain rfl : p = p0 := Option.some.inj (hp'.symm.trans hp0)
    have heq : graph = entry.2 := Except.ok.inj (hgraph0.symm.trans hgraph)
    rw [heq] at hmem
    exact hmem

end Update

/-! ## Two policies of one name -/

/-- A gateway with one route, to policy `p`. -/
def gatewayOf (policies : List PolicyConfig) : GatewayConfig where
  routes := [{ name := "r", matchRule := {}, policy := "p" }]
  policies := policies

theorem buildTables_gatewayOf (policies : List PolicyConfig) {p : PolicyConfig}
    {graph : CompiledGraph Unit}
    (hall : ∀ q ∈ policies, ∃ graph,
      q.CompilesTo (fun _ => none) (createPlugin (σ := Unit) unknownTypes) graph)
    (hlast : Keyed.lookupLast (·.name) "p" policies = some p)
    (hp : p.CompilesTo (fun _ => none) (createPlugin unknownTypes) graph) :
    buildTables (fun _ => none) (createPlugin unknownTypes) (gatewayOf policies) =
      .ok ⟨gatewayOf policies, {}, [(⟨"r", {}, "p"⟩, graph)]⟩ := by
  refine buildTables_eq_ok.mpr ⟨rfl, rfl, compileRoutes_eq_ok.mpr ⟨hall, ?_⟩⟩
  exact .cons ⟨rfl, p, hlast, hp⟩ .nil

/-- The update of the only policy of its name. -/
theorem policy_update_takes_effect_iff_gatewayOf :
    ∃ tables tables' : Tables Unit,
      (updatePolicy "p" (structuralPolicy (some "client"))).handle (fun _ => none)
        (createPlugin unknownTypes) tables = (.updated, tables') ∧
      ((∀ entry ∈ tables'.routes, entry.1.policy = "p" →
          compilePolicy (fun _ => none) (createPlugin unknownTypes)
            (structuralPolicy (some "client")) = .ok entry.2) ↔
        UpdateReaches (fun _ => none) (createPlugin (σ := Unit) unknownTypes)
          (gatewayOf [structuralPolicy none]) "p" (structuralPolicy (some "client"))) := by
  obtain ⟨old, hold, -⟩ := structuralPolicy_compiles none (by decide)
  obtain ⟨new, hnew, -⟩ := structuralPolicy_compiles (some "client") (by decide)
  have hbefore := buildTables_gatewayOf [structuralPolicy none]
    (by simpa using ⟨old, hold⟩) rfl hold
  have hafter := buildTables_gatewayOf [structuralPolicy (some "client")]
    (by simpa using ⟨new, hnew⟩) rfl hnew
  have hput := Handler.handle_of_build (updatePolicy "p" (structuralPolicy (some "client")))
    ⟨gatewayOf [structuralPolicy none], {}, [(⟨"r", {}, "p"⟩, old)]⟩ rfl hafter
  exact ⟨_, _, hput,
    (policy_update_takes_effect_iff (buildTables_eq_ok.mp hbefore).2.2 hput).1⟩

/-- With two policies of the name, the update answers success and the route runs the old one. -/
theorem update_of_first_policy_is_not_run :
    ∃ tables tables' : Tables Unit,
      compileRoutes (fun _ => none) (createPlugin unknownTypes) tables.gateway =
        .ok tables.routes ∧
      (updatePolicy "p" (structuralPolicy (some "client"))).handle (fun _ => none)
        (createPlugin unknownTypes) tables = (.updated, tables') ∧
      ¬ ∀ entry ∈ tables'.routes, entry.1.policy = "p" →
        compilePolicy (fun _ => none) (createPlugin unknownTypes)
          (structuralPolicy (some "client")) = .ok entry.2 := by
  obtain ⟨old, hold, hcatch⟩ := structuralPolicy_compiles none (by decide)
  obtain ⟨new, hnew, -⟩ := structuralPolicy_compiles (some "client") (by decide)
  have hbefore := buildTables_gatewayOf [structuralPolicy none, structuralPolicy none]
    (by simpa using ⟨old, hold⟩) rfl hold
  have hafter := buildTables_gatewayOf [structuralPolicy (some "client"), structuralPolicy none]
    (by simpa using ⟨⟨new, hnew⟩, ⟨old, hold⟩⟩) rfl hold
  have hput := Handler.handle_of_build (updatePolicy "p" (structuralPolicy (some "client")))
    ⟨gatewayOf [structuralPolicy none, structuralPolicy none], {}, [(⟨"r", {}, "p"⟩, old)]⟩ rfl
    hafter
  refine ⟨_, _, (buildTables_eq_ok.mp hbefore).2.2, hput, fun htakes => ?_⟩
  have hbody := htakes _ List.mem_cons_self rfl
  have hcatch' := (compiled_of_compile hbody).catchAll
  rw [hcatch] at hcatch'
  nomatch hcatch'

end Featherbit
