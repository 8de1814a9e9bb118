/-
  THE ETCD POLL (`spawn_watch` of `config_store/etcd.rs`) beside the writes of the cluster.

  A node polls the prefix: it loads the config, writes it down as JSON, and applies it unless the
  text is the one it remembers from its last apply.  Its own commits change the live config too and
  leave that memory alone, so content that comes back after a commit is taken for applied.

  `ClusterStep` interleaves the poll with any number of local commits (`CommitStep`) and with any
  writes from elsewhere.  Every step reports what it did (`Event`), and `History` keeps what the
  poll applied last and what a commit applied since; `Tracks` says how the node's state follows
  from it, and `converges_iff` when a poll round leaves the node with the content of etcd.

  `apply_gateway` is one step here: it assigns the live gateway config once, under its lock.
-/
import Featherbit.ConfigStore.Commit

namespace Featherbit

/-- `serde_json::to_string(&gw).unwrap_or_default()`.  The entries of a `HashMap` come in any order,
    so a config may be written in several ways; but a text is that of one config a load returns. -/
structure Fingerprint (codec : Codec) (store : EtcdConfigStore) where
  Writes : GatewayConfig → String → Prop
  total : ∀ gw, ∃ text, Writes gw text
  unique : ∀ {gw gw' kvs kvs' text}, store.loadAll codec kvs = .ok gw →
    store.loadAll codec kvs' = .ok gw' → Writes gw text → Writes gw' text → gw = gw'

/-- Where the poll is. -/
inductive WatchPc where
  | sleeping
  /-- this config is loaded -/
  | loaded (gw : GatewayConfig)
  /-- the loaded config is applied, and its text is about to be remembered -/
  | applied (fingerprint : String)

/-- etcd, and one node of the cluster. -/
structure Cluster (σ : Type) where
  kvs : Content
  live : Tables σ
  commits : List CommitPc
  watch : WatchPc
  /-- the text of the config the poll applied last -/
  last : Option String

/-- What a step did. -/
inductive Event where
  /-- a call that writes to etcd -/
  | wrote
  /-- a local commit applied its candidate -/
  | committed (gw : GatewayConfig)
  /-- the poll applied what it loaded -/
  | watched (gw : GatewayConfig)
  /-- a poll round succeeded -/
  | settled
  | other

/-- What a step of a commit did. -/
def commitEvent : CommitPc → CommitPc → Event
  | .written gw, .returned (.ok ()) => .committed gw
  | .writing _ (_ :: _), _ => .wrote
  | _, _ => .other

section Steps

variable {σ : Type} (env : Env) (factory : PluginFactory σ) {codec : Codec}
  {store : EtcdConfigStore} (fp : Fingerprint codec store)

/-- A step of the poll loop. -/
inductive WatchStep : Cluster σ → Event → Cluster σ → Prop where
  | load {c gw} (hpc : c.watch = .sleeping) (h : store.loadAll codec c.kvs = .ok gw) :
      WatchStep c .other { c with watch := .loaded gw }
  | loadFails {c} (hpc : c.watch = .sleeping) : WatchStep c .other c
  | skip {c gw text} (hpc : c.watch = .loaded gw) (htext : fp.Writes gw text)
      (hlast : c.last = some text) : WatchStep c .settled { c with watch := .sleeping }
  | apply {c gw text live} (hpc : c.watch = .loaded gw) (htext : fp.Writes gw text)
      (hlast : c.last ≠ some text) (h : buildTables env factory gw = .ok live) :
      WatchStep c (.watched gw) { c with live := live, watch := .applied text }
  | applyFails {c gw text e} (hpc : c.watch = .loaded gw) (htext : fp.Writes gw text)
      (hlast : c.last ≠ some text) (h : buildTables env factory gw = .error e) :
      WatchStep c .other { c with watch := .sleeping }
  | remember {c text} (hpc : c.watch = .applied text) :
      WatchStep c .settled { c with watch := .sleeping, last := some text }

/-- A step of the cluster: a write from elsewhere, a local commit that begins or goes on, or the
    poll. -/
inductive ClusterStep : Cluster σ → Event → Cluster σ → Prop where
  | remote {c} (op : EtcdOp) : ClusterStep c .wrote { c with kvs := op.apply c.kvs }
  | begin {c} (gw : GatewayConfig) :
      ClusterStep c .other { c with commits := c.commits ++ [.start gw] }
  | commit {c before pc after} {s : CommitState σ} (hpc : c.commits = before ++ pc :: after)
      (h : CommitStep env factory codec store ⟨pc, c.kvs, c.live⟩ s) :
      ClusterStep c (commitEvent pc s.pc)
        { c with kvs := s.kvs, live := s.live, commits := before ++ s.pc :: after }
  | watch {c e c'} (h : WatchStep env factory fp c e c') : ClusterStep c e c'

/-- The steps of a run, and what each did. -/
inductive ClusterRun (c₀ : Cluster σ) : List Event → Cluster σ → Prop where
  | start : ClusterRun c₀ [] c₀
  | step {events c e c'} (hrun : ClusterRun c₀ events c) (h : ClusterStep env factory fp c e c') :
      ClusterRun c₀ (events ++ [e]) c'

/-- A step that writes neither to etcd nor to the live config, and is not the poll's. -/
def Quiet (c c' : Cluster σ) : Prop := ClusterStep env factory fp c .other c' ∧ c'.watch = c.watch

/-- Any number of such steps. -/
abbrev Quietly : Cluster σ → Cluster σ → Prop := Relation.ReflTransGen (Quiet env factory fp)

/-- A successful poll round that no write overlaps: a load, and then either the config is not
    applied since its text is remembered, or it is applied. -/
inductive Round (c : Cluster σ) (gw : GatewayConfig) : Cluster σ → Prop where
  | skipped {c₁ c₂ c'} (hload : WatchStep env factory fp c .other c₁) (hpc : c₁.watch = .loaded gw)
      (hquiet : Quietly env factory fp c₁ c₂) (hskip : WatchStep env factory fp c₂ .settled c') :
      Round c gw c'
  | applied {c₁ c₂ c₃ c₄ c'} (hload : WatchStep env factory fp c .other c₁)
      (hpc : c₁.watch = .loaded gw) (hquiet : Quietly env factory fp c₁ c₂)
      (happly : WatchStep env factory fp c₂ (.watched gw) c₃)
      (hquiet' : Quietly env factory fp c₃ c₄)
      (hremember : WatchStep env factory fp c₄ .settled c') : Round c gw c'

end Steps

/-! ## What has been applied -/

/-- What the poll applied last, and what a local commit applied last since then. -/
structure History where
  watched : Option GatewayConfig
  committed : Option GatewayConfig

namespace History

def after (h : History) : Event → History
  | .committed gw => { h with committed := some gw }
  | .watched gw => { watched := some gw, committed := none }
  | _ => h

/-- The history of a run. -/
def of (events : List Event) : History := events.foldl after ⟨none, none⟩

@[simp] theorem of_concat (events : List Event) (e : Event) :
    of (events ++ [e]) = (of events).after e := by
  simp [of]

end History

/-- The text the poll remembers, or is about to. -/
def Cluster.pending {σ : Type} (c : Cluster σ) : Option String :=
  match c.watch with
  | .applied text => some text
  | _ => c.last

section Tracks

variable {σ : Type} {env : Env} {factory : PluginFactory σ} {codec : Codec}
  {store : EtcdConfigStore} {fp : Fingerprint codec store} {gw₀ : GatewayConfig} {h : History}
  {c c' c₀ : Cluster σ} {e : Event} {events : List Event}

/-- How the state of the node follows from what has been applied. -/
structure Tracks (fp : Fingerprint codec store) (gw₀ : GatewayConfig) (h : History)
    (c : Cluster σ) : Prop where
  live : c.live.gateway = (h.committed.or h.watched).getD gw₀
  text : ∀ text, c.pending = some text → ∃ gw, h.watched = some gw ∧ fp.Writes gw text
  pending : ∀ gw, h.watched = some gw → c.pending.isSome
  loaded : ∀ gw, c.watch = .loaded gw ∨ h.watched = some gw →
    ∃ kvs, store.loadAll codec kvs = .ok gw

/-- What a commit's step does to the live tables. -/
theorem commit_live {pc : CommitPc} {kvs : Content} {live : Tables σ} {s : CommitState σ}
    (hstep : CommitStep env factory codec store ⟨pc, kvs, live⟩ s) :
    (∃ gw, commitEvent pc s.pc = .committed gw ∧ s.live.gateway = gw) ∨
    (s.live = live ∧
      (commitEvent pc s.pc = .wrote ∨ commitEvent pc s.pc = .other ∧ s.kvs = kvs)) := by
  cases hstep with
  | accept | reject | range | rangeInvalid | rangeFails | wrote => exact Or.inr ⟨rfl, Or.inr ⟨rfl, rfl⟩⟩
  | write | writeFails | writeLost => exact Or.inr ⟨rfl, Or.inl rfl⟩
  | @apply gw =>
    cases hbuild : buildTables env factory gw with
    | ok tables =>
      refine Or.inl ⟨gw, ?_, ?_⟩
      · simp only [applyGateway, hbuild]
        rfl
      · simp only [applyGateway, hbuild]
        exact (buildTables_eq_ok.mp hbuild).1
    | error e =>
      refine Or.inr ⟨?_, Or.inr ⟨?_, rfl⟩⟩ <;> simp only [applyGateway, hbuild]
      rfl

/-- **One step keeps track.** -/
theorem tracks_step (ht : Tracks fp gw₀ h c) (hstep : ClusterStep env factory fp c e c') :
    Tracks fp gw₀ (h.after e) c' := by
  obtain ⟨hlive, htext, hpending, hloaded⟩ := ht
  cases hstep with
  | remote op => exact ⟨hlive, htext, hpending, hloaded⟩
  | begin gw => exact ⟨hlive, htext, hpending, hloaded⟩
  | @commit _ pc _ s hpc hcommit =>
    rcases commit_live hcommit with ⟨gw, hevent, hgw⟩ | ⟨hsame, hevent⟩
    · rw [hevent]
      exact ⟨hgw, htext, hpending, hloaded⟩
    · have hafter : h.after (commitEvent pc s.pc) = h := by
        rcases hevent with hevent | ⟨hevent, -⟩ <;> rw [hevent] <;> rfl
      rw [hafter]
      exact ⟨hsame ▸ hlive, htext, hpending, hloaded⟩
  | watch hwatch =>
    cases hwatch with
    | load hpc hload =>
      -- what is remembered stays so in every state but `applied`
      simp only [Cluster.pending, hpc] at htext hpending
      refine ⟨hlive, htext, hpending, fun gw hgw => ?_⟩
      rcases hgw with hgw | hgw
      · rw [← WatchPc.loaded.inj hgw]
        exact ⟨_, hload⟩
      · exact hloaded gw (Or.inr hgw)
    | loadFails hpc => exact ⟨hlive, htext, hpending, hloaded⟩
    | skip hpc =>
      simp only [Cluster.pending, hpc] at htext hpending
      exact ⟨hlive, htext, hpending, fun gw hgw => hloaded gw (hgw.imp_left nofun)⟩
    | @apply gw text live hpc hwrites hlast hbuild =>
      -- what is pending is the text of what has just been applied
      refine ⟨(buildTables_eq_ok.mp hbuild).1, fun text' htext' => ?_, fun _ _ => rfl, fun gw' hgw' => ?_⟩
      · obtain rfl : text = text' := Option.some.inj htext'
        exact ⟨gw, rfl, hwrites⟩
      · rcases hgw' with hgw' | hgw'
        · nomatch hgw'
        · rw [← Option.some.inj hgw']
          exact hloaded gw (Or.inl hpc)
    | applyFails hpc =>
      simp only [Cluster.pending, hpc] at htext hpending
      exact ⟨hlive, htext, hpending, fun gw hgw => hloaded gw (hgw.imp_left nofun)⟩
    | remember hpc =>
      simp only [Cluster.pending, hpc] at htext hpending
      exact ⟨hlive, htext, hpending, fun gw hgw => hloaded gw (hgw.imp_left nofun)⟩

/-- A node that has not polled yet. -/
def Cluster.Fresh (c : Cluster σ) : Prop := c.watch = .sleeping ∧ c.last = none

theorem tracks_of_run (hfresh : c₀.Fresh) (hrun : ClusterRun env factory fp c₀ events c) :
    Tracks fp c₀.live.gateway (.of events) c := by
  induction hrun with
  | start =>
    obtain ⟨hpc, hlast⟩ := hfresh
    have hnone : c₀.pending = none := by rw [Cluster.pending, hpc, hlast]
    refine ⟨rfl, fun text htext => ?_, fun gw hgw => ?_, fun gw hgw => ?_⟩
    · rw [hnone] at htext
      cases htext
    · cases hgw
    · rw [hpc] at hgw
      rcases hgw with hgw | hgw <;> cases hgw
  | step _ hstep ih =>
    rw [History.of_concat]
    exact tracks_step ih hstep

end Tracks

/-! ## A round -/

section Round

variable {σ : Type} {env : Env} {factory : PluginFactory σ} {codec : Codec}
  {store : EtcdConfigStore} {fp : Fingerprint codec store} {gw : GatewayConfig}
  {c c' c₀ : Cluster σ} {events : List Event}

theorem quiet_spec (hquiet : Quiet env factory fp c c') :
    c'.kvs = c.kvs ∧ c'.live = c.live ∧ c'.watch = c.watch ∧ c'.last = c.last := by
  obtain ⟨hstep, hwatch⟩ := hquiet
  generalize he : Event.other = e at hstep
  cases hstep with
  | remote => nomatch he
  | begin => exact ⟨rfl, rfl, rfl, rfl⟩
  | commit hpc hcommit =>
    rcases commit_live hcommit with ⟨gw, hevent, -⟩ | ⟨hlive, hevent | ⟨-, hkvs⟩⟩
    · nomatch he.trans hevent
    · nomatch he.trans hevent
    · exact ⟨hkvs, hlive, rfl, rfl⟩
  | watch h =>
    cases h with
    | loadFails => exact ⟨rfl, rfl, rfl, rfl⟩
    | load hpc => nomatch hwatch.trans hpc
    | applyFails hpc => nomatch hwatch.trans hpc
    | skip | apply | remember => nomatch he

theorem quietly_spec (hquiet : Quietly env factory fp c c') :
    c'.kvs = c.kvs ∧ c'.live = c.live ∧ c'.watch = c.watch ∧ c'.last = c.last := by
  induction hquiet with
  | refl => exact ⟨rfl, rfl, rfl, rfl⟩
  | tail _ hstep ih =>
    obtain ⟨hkvs, hlive, hwatch, hlast⟩ := quiet_spec hstep
    exact ⟨hkvs.trans ih.1, hlive.trans ih.2.1, hwatch.trans ih.2.2.1, hlast.trans ih.2.2.2⟩

theorem load_spec (hload : WatchStep env factory fp c .other c') (hpc : c'.watch = .loaded gw) :
    store.loadAll codec c.kvs = .ok gw ∧ c'.kvs = c.kvs ∧ c'.live = c.live ∧ c'.last = c.last := by
  generalize he : Event.other = e at hload
  cases hload with
  | load _ h => exact ⟨WatchPc.loaded.inj hpc ▸ h, rfl, rfl, rfl⟩
  | loadFails hpc' => nomatch hpc'.symm.trans hpc
  | applyFails => nomatch hpc
  | skip | apply | remember => nomatch he

/-- A round ends with the content it began with; and the node is as before, and remembers the text
    of that content, or it has the content applied. -/
theorem round_spec (hround : Round env factory fp c gw c') :
    store.loadAll codec c.kvs = .ok gw ∧ c'.kvs = c.kvs ∧
      (c'.live.gateway = gw ∨
        c'.live = c.live ∧ ∃ text, c.last = some text ∧ fp.Writes gw text) := by
  cases hround with
  | skipped hload hpc hquiet hskip =>
    obtain ⟨hgw, hkvs, hlive, hlast⟩ := load_spec hload hpc
    obtain ⟨hkvs', hlive', hpc', hlast'⟩ := quietly_spec hquiet
    rw [hpc] at hpc'
    cases hskip with
    | skip hloaded htext hremembered =>
      rw [← WatchPc.loaded.inj (hloaded.symm.trans hpc')]
      rw [hlast', hlast] at hremembered
      exact ⟨WatchPc.loaded.inj (hloaded.symm.trans hpc') ▸ hgw, hkvs'.trans hkvs,
        Or.inr ⟨hlive'.trans hlive, _, hremembered, htext⟩⟩
    | remember happlied => nomatch happlied.symm.trans hpc'
  | applied hload hpc hquiet happly hquiet' hremember =>
    obtain ⟨hgw, hkvs, -, -⟩ := load_spec hload hpc
    obtain ⟨hkvs', -, -, -⟩ := quietly_spec hquiet
    obtain ⟨hkvs'', hlive, hpc', -⟩ := quietly_spec hquiet'
    cases happly with
    | apply _ _ _ hbuild =>
      cases hremember with
      | skip hloaded => nomatch hloaded.symm.trans hpc'
      | remember =>
        refine ⟨hgw, hkvs''.trans (hkvs'.trans hkvs), Or.inl ?_⟩
        show (Cluster.live _).gateway = gw
        rw [hlive]
        exact (buildTables_eq_ok.mp hbuild).1

/-- **When the node converges.**  Take any run from a node that has not polled yet, and a round that
    begins at its end, with no write in between: the live config is the config assembled from
    etcd, whatever the round does, iff the content is not what the poll applied last, or no local
    commit has applied another config since. -/
theorem converges_iff (hfresh : c₀.Fresh) (hrun : ClusterRun env factory fp c₀ events c)
    (hsleeping : c.watch = .sleeping) (hload : store.loadAll codec c.kvs = .ok gw) :
    (∀ c', Round env factory fp c gw c' → store.loadAll codec c'.kvs = .ok c'.live.gateway) ↔
      ((History.of events).watched = some gw →
        ∀ own, (History.of events).committed = some own → own = gw) := by
  obtain ⟨hlive, htext, hpending, hloaded⟩ := tracks_of_run hfresh hrun
  have hlast : c.pending = c.last := by rw [Cluster.pending, hsleeping]
  rw [hlast] at htext hpending
  constructor
  · intro hall hwatched own hown
    -- the round that finds the text it remembers
    obtain ⟨text, hremembered⟩ := Option.isSome_iff_exists.mp (hpending gw hwatched)
    obtain ⟨gw', hwatched', hwrites⟩ := htext text hremembered
    obtain rfl : gw' = gw := Option.some.inj (hwatched'.symm.trans hwatched)
    have hround : Round env factory fp c gw' { c with watch := .sleeping } :=
      .skipped (.load hsleeping hload) rfl .refl (.skip rfl hwrites hremembered)
    have hassembled := hall _ hround
    have hgw : gw' = c.live.gateway := Except.ok.inj (hload.symm.trans hassembled)
    rw [hgw, hlive, hown]
    rfl
  · intro hcond c' hround
    obtain ⟨-, hkvs, hgw | ⟨hsame, text, hremembered, hwrites⟩⟩ := round_spec hround
    · rw [hkvs, hload, hgw]
    · -- what is remembered is the content, so the poll applied it last
      obtain ⟨gw', hwatched, hwrites'⟩ := htext text hremembered
      obtain ⟨kvs, hkvs'⟩ := hloaded gw' (Or.inr hwatched)
      obtain rfl : gw = gw' := fp.unique hload hkvs' hwrites hwrites'
      rw [hkvs, hload, hsame, hlive, hwatched]
      cases hown : (History.of events).committed with
      | none => rfl
      | some own =>
        rw [hcond hwatched own hown]
        rfl

end Round

/-! ## Content that comes back -/

/-- The JSON of consumer `a`, as text. -/
def consumerAText : String := "\x7b\"name\":\"a\",\"credentials\":\x7b\x7d\x7d"

/-- A codec for consumer `a` alone. -/
def oneConsumerCodec : Codec where
  route := .ofTexts []
  policy := .ofTexts []
  consumer := .ofTexts [({ name := "a" }, consumerAText)]

/-- The JSON of `n` times that consumer, without the brackets. -/
def consumersText : Nat → String
  | 0 => ""
  | 1 => consumerAText
  | n + 2 => consumerAText ++ "," ++ consumersText (n + 1)

/-- A config with nothing else is written in one way. -/
def oneConsumerWrites (gw : GatewayConfig) (text : String) : Prop :=
  text = "\x7b\"routes\":[],\"policies\":[],\"consumers\":[" ++
    consumersText gw.consumers.length ++ "]\x7d"

theorem Serde.mem_of_fromSlice {α : Type} [DecidableEq α] {texts : List (α × String)} {bytes : Bytes}
    {a : α} (h : (Serde.ofTexts texts).fromSlice bytes = .ok a) : a ∈ texts.map (·.1) := by
  unfold Serde.ofTexts at h
  simp only at h
  split at h
  · rename_i row hrow
    rw [← Except.ok.inj h]
    exact List.mem_map_of_mem (Keyed.key_of_lookup hrow).1
  · cases h

theorem oneConsumer_loaded {kvs : Content} {gw : GatewayConfig}
    (h : featherbitStore.loadAll oneConsumerCodec kvs = .ok gw) :
    gw = { consumers := List.replicate gw.consumers.length { name := "a" } } := by
  obtain ⟨pairs, -, hgw⟩ := EtcdConfigStore.loadAll_eq_ok.mp h
  obtain ⟨hroutes, hpolicies, hconsumers⟩ := EtcdConfigStore.gatewayFromKvs_eq_ok.mp hgw
  have hnoRoutes : gw.routes = [] := by
    rw [List.eq_nil_iff_forall_not_mem]
    intro r hr
    obtain ⟨_, -, -, hread⟩ := (EtcdConfigStore.mem_of_reads hroutes).mp hr
    nomatch Serde.mem_of_fromSlice hread
  have hnoPolicies : gw.policies = [] := by
    rw [List.eq_nil_iff_forall_not_mem]
    intro p hp
    obtain ⟨_, -, -, hread⟩ := (EtcdConfigStore.mem_of_reads hpolicies).mp hp
    nomatch Serde.mem_of_fromSlice hread
  have honly : gw.consumers = List.replicate gw.consumers.length { name := "a" } := by
    rw [List.eq_replicate_iff]
    refine ⟨rfl, fun a ha => ?_⟩
    obtain ⟨_, -, -, hread⟩ := (EtcdConfigStore.mem_of_reads hconsumers).mp ha
    exact List.mem_singleton.mp (Serde.mem_of_fromSlice hread)
  obtain ⟨routes, policies, consumers⟩ := gw
  simp only at hnoRoutes hnoPolicies honly
  rw [hnoRoutes, hnoPolicies]
  exact congrArg (GatewayConfig.mk [] []) honly

/-- More consumers make a longer text. -/
theorem consumersText_length_injective : Function.Injective fun n => (consumersText n).length := by
  refine (strictMono_nat_of_lt_succ fun n => ?_).injective
  have hpos : 0 < consumerAText.length := by decide +kernel
  cases n with
  | zero => exact hpos
  | succ n =>
    show (consumersText (n + 1)).length < (consumersText (n + 2)).length
    rw [consumersText, String.length_append, String.length_append]
    omega

def oneConsumerFingerprint : Fingerprint oneConsumerCodec featherbitStore where
  Writes := oneConsumerWrites
  total gw := ⟨_, rfl⟩
  unique := by
    intro gw gw' _ _ text hgw hgw' htext htext'
    have hlengths := congrArg String.length (htext.symm.trans htext')
    simp only [String.length_append, Nat.add_right_cancel_iff, Nat.add_left_cancel_iff] at hlengths
    have hlength : gw.consumers.length = gw'.consumers.length := consumersText_length_injective hlengths
    rw [oneConsumer_loaded hgw, oneConsumer_loaded hgw', hlength]

/-! A node over an empty prefix.  Consumer `a` is put from elsewhere, and the poll applies it. -/

def putA : EtcdOp := .put "/featherbit/consumers/a" (asBytes consumerAText)

def onlyA : GatewayConfig where
  consumers := [{ name := "a" }]

def emptyNode : Cluster Unit where
  kvs := ∅
  live := emptyTables
  commits := []
  watch := .sleeping
  last := none

/-- The run of that node. -/
abbrev NodeRun : List Event → Cluster Unit → Prop :=
  ClusterRun (fun _ => none) unknownTypes oneConsumerFingerprint emptyNode

theorem polled : ∃ live text, oneConsumerWrites onlyA text ∧
    NodeRun [.wrote, .other, .watched onlyA, .settled]
      ⟨putA.apply ∅, live, [], .sleeping, some text⟩ := by
  have hload : featherbitStore.loadAll oneConsumerCodec (putA.apply ∅) = .ok onlyA := rfl
  obtain ⟨live, hbuild⟩ : ∃ live, buildTables (fun _ => none) (unknownTypes (σ := Unit)) onlyA = .ok live :=
    ⟨_, rfl⟩
  have hstart : NodeRun [] emptyNode := .start
  have hput := hstart.step (.remote putA)
  have hloaded := hput.step (.watch (.load rfl hload))
  have happlied := hloaded.step (.watch (.apply rfl rfl nofun hbuild))
  exact ⟨live, _, rfl, happlied.step (.watch (.remember rfl))⟩

/-- What a commit of the empty config does to that prefix. -/
def deleteA : EtcdOp := .delete "/featherbit/consumers/a"

theorem plans_deleteA :
    featherbitStore.Plans oneConsumerCodec {} (putA.apply ∅) [deleteA] :=
  ⟨[("/featherbit/consumers/a", asBytes consumerAText)], ["/featherbit/consumers/a"], rfl, .refl _,
    rfl⟩

/-- The only commit there is takes a step. -/
theorem NodeRun.commit {events : List Event} {c : Cluster Unit} {pc : CommitPc} {s : CommitState Unit}
    (hrun : NodeRun events c) (hpc : c.commits = [pc])
    (h : CommitStep (fun _ => none) unknownTypes oneConsumerCodec featherbitStore
      ⟨pc, c.kvs, c.live⟩ s) :
    NodeRun (events ++ [commitEvent pc s.pc])
      { c with kvs := s.kvs, live := s.live, commits := [s.pc] } :=
  hrun.step (@ClusterStep.commit _ _ _ _ _ _ c [] pc [] s hpc h)

/-- The node then commits the empty config, and consumer `a` is put again. -/
theorem reverted : ∃ events text, oneConsumerWrites onlyA text ∧
    NodeRun events ⟨putA.apply (deleteA.apply (putA.apply ∅)), emptyTables,
      [.returned (.ok ())], .sleeping, some text⟩ := by
  obtain ⟨live, text, hwrites, hpolled⟩ := polled
  have hbegun := hpolled.step (.begin {})
  have haccepted := NodeRun.commit hbegun rfl (.accept rfl)
  have hranged := NodeRun.commit haccepted rfl (.range plans_deleteA)
  have hdeleted := NodeRun.commit hranged rfl .write
  have hwritten := NodeRun.commit hdeleted rfl .wrote
  have happlied := NodeRun.commit hwritten rfl .apply
  exact ⟨_, text, hwrites, happlied.step (.remote putA)⟩

/-- The next round finds the text it remembers, and leaves the node without consumer `a`. -/
theorem reverted_content_is_skipped : ∃ events c c', NodeRun events c ∧
    Round (fun _ => none) unknownTypes oneConsumerFingerprint c onlyA c' ∧
    featherbitStore.loadAll oneConsumerCodec c'.kvs = .ok onlyA ∧ c'.live.gateway = {} ∧
    featherbitStore.loadAll oneConsumerCodec c'.kvs ≠ .ok c'.live.gateway := by
  obtain ⟨events, text, hwrites, hrun⟩ := reverted
  have hload : featherbitStore.loadAll oneConsumerCodec
      (putA.apply (deleteA.apply (putA.apply ∅))) = .ok onlyA := rfl
  refine ⟨events, _, _, hrun, .skipped (.load rfl hload) rfl .refl (.skip rfl hwrites rfl), hload, rfl, ?_⟩
  intro h
  have hconsumers := congrArg GatewayConfig.consumers (Except.ok.inj (hload.symm.trans h))
  nomatch hconsumers

/-- A first round, after consumer `a` has been put. -/
theorem converges_iff_onlyA : ∃ c', Round (fun _ => none) unknownTypes oneConsumerFingerprint
    { emptyNode with kvs := putA.apply ∅ } onlyA c' ∧
    featherbitStore.loadAll oneConsumerCodec c'.kvs = .ok c'.live.gateway := by
  have hstart : NodeRun [] emptyNode := .start
  have hload : featherbitStore.loadAll oneConsumerCodec (putA.apply ∅) = .ok onlyA := rfl
  obtain ⟨live, hbuild⟩ :
      ∃ live, buildTables (fun _ => none) (unknownTypes (σ := Unit)) onlyA = .ok live := ⟨_, rfl⟩
  have hround : Round (fun _ => none) unknownTypes oneConsumerFingerprint
      { emptyNode with kvs := putA.apply ∅ } onlyA _ :=
    .applied (.load rfl hload) rfl .refl (.apply rfl rfl nofun hbuild) .refl (.remember rfl)
  exact ⟨_, hround, (converges_iff ⟨rfl, rfl⟩ (hstart.step (.remote putA)) rfl hload).mpr nofun _ hround⟩

end Featherbit
