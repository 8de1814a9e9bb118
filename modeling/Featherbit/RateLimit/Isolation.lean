/-
  DO TWO `limit-count` NODES COUNT APART?

  The nodes of a gateway share one counter store, and a node without a `group` puts nothing before
  its key that tells it from another node.  Two nodes count apart exactly as long as their keys
  stay apart: `serveAll` runs requests through both nodes in any order, and `Isolated` compares
  each node's answers with those of the same run without the other node's requests.
-/
import Featherbit.Plugins.LimitCount

namespace Featherbit

open LimitCountPlugin

/-- The two nodes. -/
inductive Side where
  | first
  | second
deriving DecidableEq

/-- A request that reaches one of them. -/
structure NodeRequest where
  side : Side
  context : Context
  now : Nat

/-- What came of it. -/
structure Served where
  visit : NodeRequest
  counted : Except CounterError WindowResult
  result : PluginResult

namespace Served

/-- The node let the request through. -/
def allowed (served : Served) : Bool := served.result.isOk

/-- The remaining count the node reports; `0` for a rejected request. -/
def remaining (served : Served) : Option Nat :=
  match served.counted with
  | .ok result => some (if result.allowed then result.remaining else 0)
  | .error _ => none

end Served

section Nodes

variable [CaseMapping] [JsonText] [WholeSeconds] (first second : LimitCountPlugin LocalCounterStore)

def nodeAt : Side → LimitCountPlugin LocalCounterStore
  | .first => first
  | .second => second

/-- Requests through the two nodes, one after the other. -/
def serveAll : LocalCounterStore → List NodeRequest → List Served
  | _, [] => []
  | counters, visit :: visits =>
    let plugin := nodeAt first second visit.side
    ⟨visit, (plugin.charge visit.context visit.now counters).1,
      (plugin.execute visit.context visit.now counters).1⟩ ::
        serveAll (plugin.execute visit.context visit.now counters).2 visits

/-- The decisions and remaining counts of one node. -/
def answersOf (side : Side) (run : List Served) : List (Bool × Option Nat) :=
  (run.filter fun served => decide (served.visit.side = side)).map fun served =>
    (served.allowed, served.remaining)

/-- Each node answers as if the other one received no traffic. -/
def Isolated (visits : List NodeRequest) : Prop :=
  ∀ side, answersOf side (serveAll first second ∅ visits) =
    answersOf side
      (serveAll first second ∅ (visits.filter fun visit => decide (visit.side = side)))

/-- The counter a request goes to. -/
def counterKey (visit : NodeRequest) : String :=
  (nodeAt first second visit.side).resolveKey visit.context

/-- No request of one node goes to a counter of the other. -/
def KeysApart (visits : List NodeRequest) : Prop :=
  ∀ v ∈ visits, ∀ w ∈ visits, v.side = .first → w.side = .second →
    counterKey first second v ≠ counterKey first second w

/-! ## The store as cells -/

/-- What a request does to its counter. -/
def serveCell (visit : NodeRequest) (entry : Option WindowEntry) : Served × WindowEntry :=
  let plugin := nodeAt first second visit.side
  let (result, entry') := countRequest plugin.count plugin.window visit.now entry
  (⟨visit, .ok result, plugin.respond visit.context (.ok result)⟩, entry')

variable {first second}

/-- The run is one of independent cells, the store's entries. -/
theorem serveAll_eq_log (hfirst : first.store = localCounterStore)
    (hsecond : second.store = localCounterStore) (counters : LocalCounterStore)
    (visits : List NodeRequest) :
    serveAll first second counters visits =
      (Cells.log (counterKey first second) (serveCell first second) (fun key => counters[key]?)
        visits).map (·.2) := by
  induction visits generalizing counters with
  | nil => rfl
  | cons visit visits ih =>
    have hstore : (nodeAt first second visit.side).store = localCounterStore := by
      cases visit.side with
      | first => exact hfirst
      | second => exact hsecond
    have hadmit : (nodeAt first second visit.side).charge visit.context visit.now counters =
        (.ok (countRequest (nodeAt first second visit.side).count
            (nodeAt first second visit.side).window visit.now
            counters[counterKey first second visit]?).1,
          counters.insert (counterKey first second visit)
            (countRequest (nodeAt first second visit.side).count
              (nodeAt first second visit.side).window visit.now
              counters[counterKey first second visit]?).2) := by
      unfold LimitCountPlugin.charge
      rw [hstore]
      rfl
    have hcells : (fun key => (counters.insert (counterKey first second visit)
          (countRequest (nodeAt first second visit.side).count
            (nodeAt first second visit.side).window visit.now
            counters[counterKey first second visit]?).2)[key]?) =
        Function.update (fun key => counters[key]?) (counterKey first second visit)
          (some (serveCell first second visit counters[counterKey first second visit]?).2) := by
      funext key
      rw [HashMap.get_insert, Function.update_apply]
      rfl
    rw [serveAll, Cells.log_cons, List.map_cons]
    dsimp only
    rw [execute, hadmit]
    dsimp only
    rw [ih, hcells]
    rfl

/-- Nodes whose keys stay apart count apart: every answer is the same, headers and bodies
    included. -/
theorem serveAll_filter (hfirst : first.store = localCounterStore)
    (hsecond : second.store = localCounterStore) {visits : List NodeRequest}
    (hkeys : KeysApart first second visits) (side : Side) :
    (serveAll first second ∅ visits).filter (fun served => decide (served.visit.side = side)) =
      serveAll first second ∅ (visits.filter fun visit => decide (visit.side = side)) := by
  have happart : ∀ v ∈ visits, ∀ w ∈ visits, decide (v.side = side) = true →
      decide (w.side = side) = false → counterKey first second v ≠ counterKey first second w := by
    intro v hv w hw hvs hws
    have hvs := of_decide_eq_true hvs
    have hws := of_decide_eq_false hws
    cases side with
    | first =>
      have hw2 : w.side = .second := by cases h : w.side <;> simp_all
      exact hkeys v hv w hw hvs hw2
    | second =>
      have hw1 : w.side = .first := by cases h : w.side <;> simp_all
      exact (hkeys w hw v hv hw1 hvs).symm
  rw [serveAll_eq_log hfirst hsecond, serveAll_eq_log hfirst hsecond,
    ← Cells.log_filter (fun visit : NodeRequest => decide (visit.side = side)) happart,
    List.filter_map]
  congr 1
  refine List.filter_congr fun e he => ?_
  obtain ⟨entry, hanswer⟩ := Cells.answer_of_mem_log he
  rw [Function.comp_apply, hanswer]
  rfl

/-- Nodes whose keys stay apart are isolated, whatever else happens. -/
theorem isolated_of_keysApart (hfirst : first.store = localCounterStore)
    (hsecond : second.store = localCounterStore) {visits : List NodeRequest}
    (hkeys : KeysApart first second visits) : Isolated first second visits := by
  intro side
  have hall : ∀ served ∈ serveAll first second ∅ (visits.filter fun visit => decide (visit.side = side)),
      decide (served.visit.side = side) = true := by
    intro served hserved
    rw [← serveAll_filter hfirst hsecond hkeys side] at hserved
    exact (List.mem_filter.mp hserved).2
  rw [answersOf, answersOf, serveAll_filter hfirst hsecond hkeys, List.filter_eq_self.mpr hall]

/-! ## One shared key -/

/-- A request of each node for one counter, at one time: the second comes first. -/
def contended (ctx ctx' : Context) : List NodeRequest := [⟨.second, ctx', 0⟩, ⟨.first, ctx, 0⟩]

section Report

variable (first second)

omit [CaseMapping] in
/-- What a node reports of a counted request. -/
theorem report_serveCell {visit : NodeRequest} {entry : Option WindowEntry} {allowed : Bool}
    {remaining : Nat}
    (hallowed : (countRequest (nodeAt first second visit.side).count
      (nodeAt first second visit.side).window visit.now entry).1.allowed = allowed)
    (hremaining : (countRequest (nodeAt first second visit.side).count
      (nodeAt first second visit.side).window visit.now entry).1.remaining = remaining) :
    (serveCell first second visit entry).1.allowed = allowed ∧
    (serveCell first second visit entry).1.remaining = some (if allowed then remaining else 0) := by
  subst hallowed hremaining
  exact ⟨respond_isOk _ visit.context _, rfl⟩

end Report

/-- The first node's answer there is not the one it gives alone. -/
theorem not_isolated_of_shared_key (hfirst : first.store = localCounterStore)
    (hsecond : second.store = localCounterStore) {ctx ctx' : Context}
    (hkey : first.resolveKey ctx = second.resolveKey ctx') :
    ¬ Isolated first second (contended ctx ctx') := by
  intro hisolated
  have hanswers := hisolated .first
  have hfirst_pos := first.count_pos
  -- the second node's request opens the window for both
  have hopened : (countRequest second.count second.window 0 none).2 = (0, 1) := by
    obtain ⟨-, -, hentry⟩ := countRequest_of_current second.count
      (currentWindow_of_opens (show opensWindow second.window 0 none = true from rfl))
    rw [hentry, if_pos second.count_pos]
  have hcurrent : currentWindow 0 first.window (some (0, 1)) = (0, 1) :=
    currentWindow_of_open (decide_eq_false (Nat.not_le.mpr first.window_pos))
  obtain ⟨hshared, hshared', -⟩ := countRequest_of_current first.count hcurrent
  obtain ⟨halone, halone', -⟩ := countRequest_of_current first.count
    (currentWindow_of_opens (show opensWindow first.window 0 none = true from rfl))
  obtain ⟨hs, hs'⟩ : (serveCell first second ⟨.first, ctx, 0⟩ (some (0, 1))).1.allowed = _ ∧ _ :=
    report_serveCell first second hshared hshared'
  obtain ⟨ha, ha'⟩ : (serveCell first second ⟨.first, ctx, 0⟩ none).1.allowed = _ ∧ _ :=
    report_serveCell first second halone halone'
  have htogether : answersOf .first (serveAll first second ∅ (contended ctx ctx')) =
      [((serveCell first second ⟨.first, ctx, 0⟩ (some (0, 1))).1.allowed,
        (serveCell first second ⟨.first, ctx, 0⟩ (some (0, 1))).1.remaining)] := by
    have hkey' : counterKey first second ⟨.first, ctx, 0⟩ = counterKey first second ⟨.second, ctx', 0⟩ :=
      hkey
    rw [serveAll_eq_log hfirst hsecond, contended, Cells.log_cons, Cells.log_cons, hkey',
      Function.update_self, Std.ExtTreeMap.getElem?_empty]
    rw [show (serveCell first second ⟨.second, ctx', 0⟩ none).2 = (0, 1) from hopened]
    rfl
  have hapart : answersOf .first (serveAll first second ∅
      ((contended ctx ctx').filter fun visit => decide (visit.side = .first))) =
      [((serveCell first second ⟨.first, ctx, 0⟩ none).1.allowed,
        (serveCell first second ⟨.first, ctx, 0⟩ none).1.remaining)] := by
    rw [serveAll_eq_log hfirst hsecond]
    rfl
  rw [htogether, hapart, hs, hs', ha, ha'] at hanswers
  simp only [List.cons.injEq, Prod.mk.injEq, Option.some.injEq, and_true, decide_eq_decide] at hanswers
  obtain ⟨hdecision, hremaining⟩ := hanswers
  -- the same decision, but one request more is counted in the shared window
  have hmore : 1 < first.count := hdecision.mpr hfirst_pos
  rw [if_pos (decide_eq_true hmore), if_pos (decide_eq_true hfirst_pos), if_pos hmore,
    if_pos hfirst_pos] at hremaining
  omega

/-- Two nodes without a `group` and with the same `key` share every counter. -/
theorem not_isolated_of_same_template (hfirst : first.store = localCounterStore)
    (hsecond : second.store = localCounterStore) (hgroup : first.group = none)
    (hgroup' : second.group = none) (hkey : first.keyTemplate = second.keyTemplate) (ctx : Context) :
    ¬ Isolated first second (contended ctx ctx) := by
  refine not_isolated_of_shared_key hfirst hsecond ?_
  unfold resolveKey
  rw [hgroup, hgroup', hkey]

/-- **When two nodes count apart.**  They do in every run in which no request of one goes to a
    counter of the other; and they do in every run in time order iff no two requests have one key
    at both nodes. -/
theorem limitCount_isolated_iff {config config' : HashMap Json}
    (hfirst : fromConfig config .default = .ok first)
    (hsecond : fromConfig config' .default = .ok second) :
    (∀ visits, KeysApart first second visits → Isolated first second visits) ∧
    ((∀ visits, visits.Pairwise (fun v w => v.now ≤ w.now) → Isolated first second visits) ↔
      ∀ ctx ctx', first.resolveKey ctx ≠ second.resolveKey ctx') := by
  have hfirst := store_of_fromConfig hfirst
  have hsecond := store_of_fromConfig hsecond
  have happart : ∀ visits, KeysApart first second visits → Isolated first second visits :=
    fun visits hkeys => isolated_of_keysApart hfirst hsecond hkeys
  refine ⟨happart, fun h ctx ctx' hkey => ?_, fun h visits _ => happart visits ?_⟩
  · exact not_isolated_of_shared_key hfirst hsecond hkey
      (h (contended ctx ctx') (by simp [contended]))
  · intro v _ w _ hv hw
    rw [counterKey, counterKey, hv, hw]
    exact h v.context w.context

end Nodes

/-! ## Two default nodes -/

/-- One request a minute for each client. -/
def onePerMinute : HashMap Json :=
  (∅ : HashMap Json).insert "count" (.number (.posInt 1))
    |>.insert "time_window" (.number (.posInt 60))

/-- The node it configures. -/
def onePerMinuteNode : LimitCountPlugin LocalCounterStore where
  count := 1
  count_pos := by decide
  window := durationFromSecs 60
  window_pos := by decide
  keyTemplate := "$remote_addr"
  group := none
  rejectedCode := 503
  rejectedMsg := none
  showLimitQuotaHeader := true
  allowDegradation := false
  store := localCounterStore

theorem fromConfig_onePerMinute : fromConfig onePerMinute .default = .ok onePerMinuteNode := rfl

/-- Whole seconds, rounded up. -/
abbrev exactSeconds : WholeSeconds where
  ceilSecs nanos := (nanos + 999999999) / 1000000000

theorem limitCount_isolated_iff_onePerMinute :
    let _ : CaseMapping := asciiCaseMapping
    let _ : JsonText := oneFieldText
    let _ : WholeSeconds := exactSeconds
    (∀ visits, KeysApart onePerMinuteNode onePerMinuteNode visits →
      Isolated onePerMinuteNode onePerMinuteNode visits) ∧
    ((∀ visits, visits.Pairwise (fun v w => v.now ≤ w.now) →
        Isolated onePerMinuteNode onePerMinuteNode visits) ↔
      ∀ ctx ctx', onePerMinuteNode.resolveKey ctx ≠ onePerMinuteNode.resolveKey ctx') := by
  intro _ _ _
  exact limitCount_isolated_iff fromConfig_onePerMinute fromConfig_onePerMinute

/-- Two such nodes, neither with a `group`, and one client: a request at the second node uses up
    the first node's minute. -/
theorem onePerMinute_nodes_interfere :
    let _ : CaseMapping := asciiCaseMapping
    let _ : JsonText := oneFieldText
    let _ : WholeSeconds := exactSeconds
    fromConfig onePerMinute .default = .ok onePerMinuteNode ∧ onePerMinuteNode.group = none ∧
    ¬ Isolated onePerMinuteNode onePerMinuteNode
      (contended (Context.new default) (Context.new default)) := by
  intro _ _ _
  exact ⟨rfl, rfl, not_isolated_of_same_template rfl rfl rfl rfl rfl _⟩

end Featherbit
