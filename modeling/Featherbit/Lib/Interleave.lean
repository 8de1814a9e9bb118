/-
  THREADS THAT TAKE TURNS, as a library.

  A system of threads has a local state for each thread and a state they share; `step i l s` is
  what thread `i` does next, `none` when it is blocked or over.  A step of the system picks any
  thread that can move.  `Reaches` collects the states reached by any number of such steps, in any
  order; `ReachesWhen Q` only those whose every step met the condition `Q`.

  Invariants are proved once per step (`reaches_invariant`, `reachesWhen_invariant`), and a
  schedule (a list of threads) that runs through is a way to reach its last state
  (`reaches_of_run`).
-/
import Mathlib.Logic.Relation
import Mathlib.Logic.Function.Basic

namespace Interleave

/-- Threads `ι` with local states `L` around a shared state `S`. -/
structure System (ι L S : Type*) where
  step : ι → L → S → Option (L × S)

/-- The states of all threads, and the shared state. -/
structure Config (ι L S : Type*) where
  threads : ι → L
  shared : S

namespace System

variable {ι L S : Type*} [DecidableEq ι] (sys : System ι L S)

/-- Thread `i` takes its next step. -/
def fire (i : ι) (c : Config ι L S) : Option (Config ι L S) :=
  (sys.step i (c.threads i) c.shared).map fun r =>
    { threads := Function.update c.threads i r.1, shared := r.2 }

/-- The threads of a schedule take their steps one after the other. -/
def run : List ι → Config ι L S → Option (Config ι L S)
  | [], c => some c
  | i :: is, c => (sys.fire i c).bind (run is)

/-- Every state the system can come to, in any order of steps. -/
def Reaches : Config ι L S → Config ι L S → Prop :=
  Relation.ReflTransGen fun c c' => ∃ i, sys.fire i c = some c'

/-- The states the system comes to in runs whose every step meets `Q`, a condition on the thread
    that moves and the state before its step. -/
def ReachesWhen (Q : ι → Config ι L S → Prop) : Config ι L S → Config ι L S → Prop :=
  Relation.ReflTransGen fun c c' => ∃ i, Q i c ∧ sys.fire i c = some c'

variable {sys}

/-- What a step did: thread `i` moved, and every other thread is where it was. -/
theorem fire_spec {i : ι} {c c' : Config ι L S} (h : sys.fire i c = some c') :
    sys.step i (c.threads i) c.shared = some (c'.threads i, c'.shared) ∧
      ∀ j, j ≠ i → c'.threads j = c.threads j := by
  obtain ⟨⟨l, s⟩, hstep, rfl⟩ := Option.map_eq_some_iff.mp h
  refine ⟨?_, fun j hj => Function.update_of_ne hj _ _⟩
  rw [hstep]
  simp

/-- A fact every step keeps holds in every state reached. -/
theorem reaches_invariant {P : Config ι L S → Prop}
    (hstep : ∀ i c c', P c → sys.fire i c = some c' → P c') {c c' : Config ι L S}
    (h : sys.Reaches c c') (h0 : P c) : P c' := by
  induction h with
  | refl => exact h0
  | tail _ ht ih =>
    obtain ⟨i, hi⟩ := ht
    exact hstep i _ _ ih hi

/-- A fact every step that meets `Q` keeps holds in every state reached by such steps. -/
theorem reachesWhen_invariant {Q : ι → Config ι L S → Prop} {P : Config ι L S → Prop}
    (hstep : ∀ i c c', P c → Q i c → sys.fire i c = some c' → P c') {c c' : Config ι L S}
    (h : sys.ReachesWhen Q c c') (h0 : P c) : P c' := by
  induction h with
  | refl => exact h0
  | tail _ ht ih =>
    obtain ⟨i, hq, hi⟩ := ht
    exact hstep i _ _ ih hq hi

/-- A schedule that runs through reaches its last state. -/
theorem reaches_of_run : ∀ (is : List ι) {c c' : Config ι L S},
    sys.run is c = some c' → sys.Reaches c c' := by
  intro is
  induction is with
  | nil =>
    intro c c' h
    obtain rfl := Option.some.inj h
    exact .refl
  | cons i is ih =>
    intro c c' h
    obtain ⟨c1, hfire, hrest⟩ := Option.bind_eq_some_iff.mp h
    exact .head ⟨i, hfire⟩ (ih hrest)

/-- One more step of a thread whose place is known. -/
theorem Reaches.advance {c : Config ι L S} {threads : ι → L} {i : ι} {l l' : L} {s s' : S}
    (h : sys.Reaches c ⟨threads, s⟩) (hl : threads i = l) (hstep : sys.step i l s = some (l', s')) :
    sys.Reaches c ⟨Function.update threads i l', s'⟩ := by
  refine h.tail ⟨i, ?_⟩
  show (sys.step i (threads i) s).map _ = _
  rw [hl, hstep]
  rfl

/-- **Threads that do not notice others.**  The threads of a schedule that are seen get the same
    answers from shared states that are the same to them, and the other threads of it leave the
    shared state the same to them.  Then the seen threads come to the same places when the others
    take no steps. -/
theorem run_filter {seen : ι → Prop} [DecidablePred seen] {same : S → S → Prop} (is : List ι)
    (hown : ∀ i ∈ is, seen i → ∀ l s t l' s', same s t → sys.step i l s = some (l', s') →
      ∃ t', sys.step i l t = some (l', t') ∧ same s' t')
    (hother : ∀ i ∈ is, ¬ seen i → ∀ l s t l' s', same s t → sys.step i l s = some (l', s') →
      same s' t) :
    ∀ c c' d : Config ι L S, sys.run is c = some c' → same c.shared d.shared →
      (∀ i, seen i → d.threads i = c.threads i) →
      ∃ d', sys.run (is.filter seen) d = some d' ∧ same c'.shared d'.shared ∧
        ∀ i, seen i → d'.threads i = c'.threads i := by
  induction is with
  | nil =>
    intro c c' d h hsame hthreads
    obtain rfl := Option.some.inj h
    exact ⟨d, rfl, hsame, hthreads⟩
  | cons i is ih =>
    intro c c' d h hsame hthreads
    have ih := ih (fun j hj => hown j (List.mem_cons_of_mem _ hj))
      (fun j hj => hother j (List.mem_cons_of_mem _ hj))
    obtain ⟨c1, hfire, hrest⟩ := Option.bind_eq_some_iff.mp h
    obtain ⟨hstep, hframe⟩ := fire_spec hfire
    by_cases hseen : seen i
    · obtain ⟨t', hstep', hsame'⟩ := hown i List.mem_cons_self hseen _ _ _ _ _ hsame hstep
      have hfire' : sys.fire i d =
          some ⟨Function.update d.threads i (c1.threads i), t'⟩ := by
        unfold fire
        rw [hthreads i hseen, hstep']
        rfl
      have hthreads' : ∀ j, seen j → Function.update d.threads i (c1.threads i) j = c1.threads j := by
        intro j hj
        by_cases hji : j = i
        · subst hji
          exact Function.update_self ..
        · rw [Function.update_of_ne hji, hthreads j hj, hframe j hji]
      obtain ⟨d', hrun, hlast⟩ := ih _ _ ⟨Function.update d.threads i (c1.threads i), t'⟩ hrest
        hsame' hthreads'
      refine ⟨d', ?_, hlast⟩
      rw [List.filter_cons_of_pos (by simpa using hseen), run, hfire']
      exact hrun
    · have hthreads' : ∀ j, seen j → d.threads j = c1.threads j := by
        intro j hj
        rw [hthreads j hj, hframe j fun hji => hseen (hji ▸ hj)]
      obtain ⟨d', hrun, hlast⟩ :=
        ih _ _ d hrest (hother i List.mem_cons_self hseen _ _ _ _ _ hsame hstep) hthreads'
      refine ⟨d', ?_, hlast⟩
      rw [List.filter_cons_of_neg (by simpa using hseen)]
      exact hrun

/-- The threads of a schedule take their steps as long as each meets the condition. -/
def runWhen (sys : System ι L S) (Q : ι → Config ι L S → Prop) [∀ i c, Decidable (Q i c)] :
    List ι → Config ι L S → Option (Config ι L S)
  | [], c => some c
  | i :: is, c => if Q i c then (sys.fire i c).bind (sys.runWhen Q is) else none

theorem reachesWhen_of_runWhen {Q : ι → Config ι L S → Prop} [∀ i c, Decidable (Q i c)] :
    ∀ (is : List ι) {c c' : Config ι L S}, sys.runWhen Q is c = some c' →
      sys.ReachesWhen Q c c' := by
  intro is
  induction is with
  | nil =>
    intro c c' h
    obtain rfl := Option.some.inj h
    exact .refl
  | cons i is ih =>
    intro c c' h
    simp only [runWhen] at h
    split at h
    · rename_i hq
      obtain ⟨c1, hfire, hrest⟩ := Option.bind_eq_some_iff.mp h
      exact .head ⟨i, hq, hfire⟩ (ih hrest)
    · nomatch h

end System

end Interleave
