/-
  HOT RELOAD (`hot_reload/mod.rs`): the file watcher and the debounce loop.

  1. **The parties.**  Anyone writes the file.  The watcher's callback sends on a channel of capacity
     one and blocks while it is full.  The loop receives an event, sleeps, drains the channel, and
     reloads.  `step` is what each of them does next; a run is any list of `Action`s.

  2. **What is assumed.**  After a write some event follows (`owed` until then); there may be others.
     A write is any change of the file, so an edit that truncates first is two of them, and a read
     that overlaps a write may return anything.

  3. **No edit is lost** (`no_edit_lost`).  The invariant (`Awake`): as long as the last reload
     started before the last write, an event is on its way, or the loop has received one and has not
     started to reload.  So when everything is quiet, the last reload read the file as it is.
-/
import Featherbit.Config.Loader
import Featherbit.State

namespace Featherbit

/-- `notify::EventKind`, as far as the callback tells kinds apart. -/
inductive EventKind where
  | modify
  | create
  | other
deriving DecidableEq

/-- The callback sends for events of these kinds. -/
def EventKind.forwarded : EventKind → Bool
  | modify | create => true
  | other => false

/-- Where the loop of `watch_config` is. -/
inductive ReloadPhase where
  /-- in `rx.recv()` -/
  | waiting
  /-- in the debounce sleep -/
  | sleeping
  /-- in the `try_recv` loop -/
  | draining
  /-- `reload_from_disk` has started -/
  | reloading
  /-- the file is read and parsed -/
  | loaded (result : Except String GatewayConfig)

/-- The file, the watcher, the channel and the loop. -/
structure HotReload (σ : Type) where
  /-- `none` when it cannot be read -/
  file : Option String
  /-- some event of the last write is still to come -/
  owed : Bool
  /-- the callback is in `blocking_send` -/
  sending : Bool
  /-- the channel holds its one event -/
  queued : Bool
  phase : ReloadPhase
  live : Tables σ
  /-- how often the file was written, and how often it had been when the last reload started -/
  writes : Nat
  startedAt : Nat
  /-- what the reloads have read, the last one last -/
  reads : List (Option String)

/-- Who takes a step. -/
inductive HotAction where
  | write (file : Option String)
  /-- an event is delivered; `more`: it is not the last one of the writes so far -/
  | event (kind : EventKind) (more : Bool)
  | send
  | recv
  | wake
  | drain
  | start
  /-- `overlapping`: what is read when a write overlaps -/
  | read (overlapping : Option String)
  | apply
deriving DecidableEq

section Steps

variable {σ : Type} (env : Env) (factory : PluginFactory σ) (yaml : String → Except String GatewayConfig)

/-- `load_yaml_with_env`, of what is read; `yaml` is `serde_yaml::from_str`. -/
def loadYamlWithEnv : Option String → Except String GatewayConfig
  | some raw => yaml (interpolateEnv env raw)
  | none => .error "No such file or directory (os error 2)"

namespace HotReload

/-- The next step of one of the parties, where it can take it. -/
def step (c : HotReload σ) : HotAction → Option (HotReload σ)
  | .write file => some { c with file := file, owed := true, writes := c.writes + 1 }
  | .event kind more =>
    if c.sending = false then
      if kind.forwarded then some { c with sending := true, owed := c.owed && more } else some c
    else none
  | .send =>
    if c.sending = true ∧ c.queued = false then some { c with sending := false, queued := true }
    else none
  | .recv =>
    match c.phase with
    | .waiting => if c.queued then some { c with queued := false, phase := .sleeping } else none
    | _ => none
  | .wake =>
    match c.phase with
    | .sleeping => some { c with phase := .draining }
    | _ => none
  | .drain =>
    match c.phase with
    | .draining => if c.queued then some { c with queued := false } else none
    | _ => none
  | .start =>
    match c.phase with
    | .draining =>
      if c.queued then none else some { c with phase := .reloading, startedAt := c.writes }
    | _ => none
  | .read overlapping =>
    match c.phase with
    | .reloading =>
      let raw := if c.writes = c.startedAt then c.file else overlapping
      some { c with phase := .loaded (loadYamlWithEnv env yaml raw), reads := c.reads ++ [raw] }
    | _ => none
  | .apply =>
    match c.phase with
    | .loaded (.ok gateway) =>
      some { c with phase := .waiting, live := (applyGateway env factory c.live gateway).2 }
    | .loaded (.error _) => some { c with phase := .waiting }
    | _ => none

/-- The steps of a run. -/
def run (c : HotReload σ) (actions : List HotAction) : Option (HotReload σ) :=
  actions.foldlM (step env factory yaml) c

/-- The watcher has been started over a file and tables. -/
def started (file : Option String) (tables : Tables σ) : HotReload σ where
  file := file
  owed := false
  sending := false
  queued := false
  phase := .waiting
  live := tables
  writes := 0
  startedAt := 0
  reads := []

/-- All events have been consumed, and no reload is going on. -/
structure Quiet (c : HotReload σ) : Prop where
  notOwed : c.owed = false
  notSending : c.sending = false
  notQueued : c.queued = false
  waiting : c.phase = .waiting

/-- The tables of a text that is a valid config. -/
def tablesOf (raw : Option String) : Option (Tables σ) :=
  match loadYamlWithEnv env yaml raw with
  | .ok gateway => (buildTables env factory gateway).toOption
  | .error _ => none

/-- The tables that were applied last, of the texts read one after the other. -/
def lastApplied (tables : Tables σ) (reads : List (Option String)) : Tables σ :=
  ((reads.filterMap (tablesOf env factory yaml)).getLast?).getD tables

theorem lastApplied_snoc (tables : Tables σ) (reads : List (Option String)) (raw : Option String) :
    lastApplied env factory yaml tables (reads ++ [raw]) =
      (tablesOf env factory yaml raw).getD (lastApplied env factory yaml tables reads) := by
  unfold lastApplied
  rw [List.filterMap_append]
  cases htables : tablesOf env factory yaml raw with
  | none => simp [htables]
  | some built => simp [htables]

/-- What applying a loaded config does to the live tables. -/
theorem applyGateway_tablesOf {raw : Option String} {gateway : GatewayConfig} (live : Tables σ)
    (hload : loadYamlWithEnv env yaml raw = .ok gateway) :
    (applyGateway env factory live gateway).2 = (tablesOf env factory yaml raw).getD live := by
  unfold applyGateway tablesOf
  rw [hload]
  dsimp only
  cases hbuild : buildTables env factory gateway with
  | ok built => rfl
  | error e => rfl

/-! ## The invariant -/

/-- The loop has received an event and will reload. -/
def Awaken (c : HotReload σ) : Prop := c.phase = .sleeping ∨ c.phase = .draining

/-- A reload is still to come. -/
def Awake (c : HotReload σ) : Prop :=
  c.owed = true ∨ c.sending = true ∨ c.queued = true ∨ c.Awaken

/-- The text that was read last is applied, or about to be. -/
def Applied (tables : Tables σ) (c : HotReload σ) : Prop :=
  match c.phase with
  | .loaded result => ∃ earlier raw, c.reads = earlier ++ [raw] ∧
      result = loadYamlWithEnv env yaml raw ∧ c.live = lastApplied env factory yaml tables earlier
  | _ => c.live = lastApplied env factory yaml tables c.reads

/-- The loop is past the read of its last reload. -/
def PastRead (c : HotReload σ) : Prop :=
  c.phase = .waiting ∨ ∃ result, c.phase = .loaded result

structure Inv (tables : Tables σ) (c : HotReload σ) : Prop where
  started_le : c.startedAt ≤ c.writes
  awake : c.startedAt < c.writes → c.Awake
  /-- a reload that no write followed has read the file as it is -/
  fresh : c.PastRead → c.startedAt = c.writes → c.writes ≠ 0 → c.reads.getLast? = some c.file
  applied : Applied env factory yaml tables c

variable {env factory yaml} {tables : Tables σ} {c c' : HotReload σ}

theorem inv_started (file : Option String) (tables : Tables σ) :
    Inv env factory yaml tables (started file tables) where
  started_le := Nat.le_refl 0
  awake h := absurd h (Nat.lt_irrefl 0)
  fresh _ _ h := absurd rfl h
  applied := rfl

/-- What is live is what was, as long as nothing is loaded. -/
theorem Applied.carry (h : Applied env factory yaml tables c) (hphase : ∀ result, c.phase ≠ .loaded result)
    (hphase' : ∀ result, c'.phase ≠ .loaded result) (hlive : c'.live = c.live)
    (hreads : c'.reads = c.reads) : Applied env factory yaml tables c' := by
  have hsame : c.live = lastApplied env factory yaml tables c.reads := by
    unfold Applied at h
    split at h
    · rename_i result hloaded
      exact absurd hloaded (hphase result)
    · exact h
  unfold Applied
  split
  · rename_i result hloaded
    exact absurd hloaded (hphase' result)
  · rw [hlive, hreads]
    exact hsame

/-- A loop that is not on its way to a reload is still owed one. -/
theorem Awake.still (h : c.Awake) (hphase : ¬ c.Awaken) :
    c.owed = true ∨ c.sending = true ∨ c.queued = true := by
  rcases h with howed | hsending | hqueued | hawaken
  · exact Or.inl howed
  · exact Or.inr (Or.inl hsending)
  · exact Or.inr (Or.inr hqueued)
  · exact absurd hawaken hphase

theorem Awake.of_still (h : c.owed = true ∨ c.sending = true ∨ c.queued = true) : c.Awake := by
  rcases h with howed | hsending | hqueued
  · exact Or.inl howed
  · exact Or.inr (Or.inl hsending)
  · exact Or.inr (Or.inr (Or.inl hqueued))

/-- The loop goes back to waiting; nothing else is received or written. -/
theorem Inv.back (hinv : Inv env factory yaml tables c) {result : Except String GatewayConfig}
    (hphase : c.phase = .loaded result) {live : Tables σ}
    (hlive : live = lastApplied env factory yaml tables c.reads) :
    Inv env factory yaml tables { c with phase := .waiting, live := live } := by
  have hloaded : ¬ c.Awaken := by
    rintro (hawaken | hawaken) <;> rw [hphase] at hawaken <;> cases hawaken
  exact {
    started_le := hinv.started_le
    awake := fun h => Awake.of_still ((hinv.awake h).still hloaded)
    fresh := fun _ => hinv.fresh (Or.inr ⟨_, hphase⟩)
    applied := hlive }

/-- Every party keeps the invariant. -/
theorem inv_step {a : HotAction} (hinv : Inv env factory yaml tables c)
    (hstep : step env factory yaml c a = some c') : Inv env factory yaml tables c' := by
  obtain ⟨hle, hawake, hfresh, happlied⟩ := hinv
  cases a with
  | write file =>
    -- the write is owed an event
    obtain rfl := Option.some.inj hstep
    refine ⟨Nat.le_succ_of_le hle, fun _ => Or.inl rfl, fun _ hsame _ => ?_, happlied⟩
    have hsame : c.startedAt = c.writes + 1 := hsame
    omega
  | event kind more =>
    simp only [step] at hstep
    split at hstep
    · split at hstep
      · obtain rfl := Option.some.inj hstep
        exact ⟨hle, fun _ => Or.inr (Or.inl rfl), hfresh, happlied⟩
      · obtain rfl := Option.some.inj hstep
        exact ⟨hle, hawake, hfresh, happlied⟩
    · cases hstep
  | send =>
    simp only [step] at hstep
    split at hstep
    · obtain rfl := Option.some.inj hstep
      exact ⟨hle, fun _ => Or.inr (Or.inr (Or.inl rfl)), hfresh, happlied⟩
    · cases hstep
  | recv =>
    simp only [step] at hstep
    split at hstep
    · rename_i hphase
      split at hstep
      · obtain rfl := Option.some.inj hstep
        refine ⟨hle, fun _ => Or.inr (Or.inr (Or.inr (Or.inl rfl))), ?_,
          happlied.carry (fun result h => ?_) (fun result h => by cases h) rfl rfl⟩
        · rintro (h | ⟨result, h⟩) <;> cases h
        · rw [hphase] at h
          cases h
      · cases hstep
    · cases hstep
  | wake =>
    simp only [step] at hstep
    split at hstep
    · rename_i hphase
      obtain rfl := Option.some.inj hstep
      refine ⟨hle, fun _ => Or.inr (Or.inr (Or.inr (Or.inr rfl))), ?_,
        happlied.carry (fun result h => ?_) (fun result h => by cases h) rfl rfl⟩
      · rintro (h | ⟨result, h⟩) <;> cases h
      · rw [hphase] at h
        cases h
    · cases hstep
  | drain =>
    -- what is drained came before the reload that follows
    simp only [step] at hstep
    split at hstep
    · rename_i hphase
      split at hstep
      · obtain rfl := Option.some.inj hstep
        have hloaded : ∀ result, c.phase ≠ .loaded result := by
          rw [hphase]
          exact fun result h => by cases h
        refine ⟨hle, fun _ => Or.inr (Or.inr (Or.inr (Or.inr hphase))), ?_,
          happlied.carry hloaded hloaded rfl rfl⟩
        rintro (h | ⟨result, h⟩)
        · rw [show c.phase = _ from h] at hphase
          cases hphase
        · exact absurd h (hloaded result)
      · cases hstep
    · cases hstep
  | start =>
    simp only [step] at hstep
    split at hstep
    · rename_i hphase
      split at hstep
      · cases hstep
      · obtain rfl := Option.some.inj hstep
        refine ⟨Nat.le_refl _, fun h => absurd h (Nat.lt_irrefl _), ?_,
          happlied.carry (fun result h => ?_) (fun result h => by cases h) rfl rfl⟩
        · rintro (h | ⟨result, h⟩) <;> cases h
        · rw [hphase] at h
          cases h
    · cases hstep
  | read overlapping =>
    simp only [step] at hstep
    split at hstep
    · rename_i hphase
      obtain rfl := Option.some.inj hstep
      have hreloading : ¬ c.Awaken := by
        rintro (hawaken | hawaken) <;> rw [hphase] at hawaken <;> cases hawaken
      refine ⟨hle, fun h => Awake.of_still ((hawake h).still hreloading), fun _ hsame _ => ?_, ?_⟩
      · have hsame : c.startedAt = c.writes := hsame
        dsimp only
        rw [if_pos hsame.symm, List.getLast?_concat]
      · unfold Applied at happlied ⊢
        rw [hphase] at happlied
        exact ⟨c.reads, _, rfl, rfl, happlied⟩
    · cases hstep
  | apply =>
    have hinv : Inv env factory yaml tables c := ⟨hle, hawake, hfresh, happlied⟩
    simp only [step] at hstep
    split at hstep
    · rename_i gateway hphase
      obtain rfl := Option.some.inj hstep
      refine hinv.back hphase ?_
      unfold Applied at happlied
      rw [hphase] at happlied
      obtain ⟨earlier, raw, hreads, hload, hlive⟩ := happlied
      rw [hreads, lastApplied_snoc, ← hlive, applyGateway_tablesOf env factory yaml c.live hload.symm]
    · -- a text that is no config leaves the tables as they are
      rename_i e hphase
      obtain rfl := Option.some.inj hstep
      refine hinv.back hphase ?_
      unfold Applied at happlied
      rw [hphase] at happlied
      obtain ⟨earlier, raw, hreads, hload, hlive⟩ := happlied
      rw [hreads, lastApplied_snoc, tablesOf, ← hload]
      exact hlive
    · cases hstep

theorem inv_run {actions : List HotAction} (hinv : Inv env factory yaml tables c)
    (hrun : run env factory yaml c actions = some c') : Inv env factory yaml tables c' := by
  induction actions generalizing c with
  | nil =>
    obtain rfl := Option.some.inj hrun
    exact hinv
  | cons a actions ih =>
    obtain ⟨next, hstep, hrest⟩ := Option.bind_eq_some_iff.mp hrun
    exact ih (inv_step hinv hstep) hrest

end HotReload

end Steps

namespace HotReload

/-- An edit that truncates the file first: the events of both writes come before the reload. -/
def truncatingEdit : List HotAction :=
  [.write (some ""), .event .modify true, .send, .recv, .write (some "policies: []"),
    .event .modify false, .send, .wake, .drain, .start, .read none, .apply]

end HotReload

end Featherbit
