/-
  PROGRAMS THAT CALL OUT, and any number of them at once, as a library.

  A `Task` makes calls, each answered from outside, and returns in the end.

  1. **One task.**  `Keeps Q post past` says of a task started after the events `past`: every call
     it makes meets `Q`, and what it returns meets `post`, both judged by the events up to there.
     The rules for a single call and for `>>=` prove it along the text of the program.
  2. **A pool.**  A family of tasks takes turns around one history.  What a call may be answered
     with is a relation on that history, so clocks, peers and what other tasks leave behind are as
     free as the relation lets them be.
  3. **Every run.**  Each task keeps in the pool what it keeps alone (`Reaches.keeps`), every call
     in the history met its condition when it was made (`Reaches.called`), and was answered as
     allowed (`Reaches.answered`).
-/
import Mathlib.Logic.Relation
import Mathlib.Logic.Function.Basic

namespace Tasks

/-- A program with calls `C`, each answered in `R c`, that returns an `α`. -/
inductive Task (C : Type) (R : C → Type) (α : Type) where
  | done (a : α)
  | call (c : C) (k : R c → Task C R α)

/-- A call with its answer, and when that was. -/
structure Event (T : Type) {C : Type} (R : C → Type) where
  time : T
  what : (c : C) × R c

section Task

variable {T C α β ε : Type} {R : C → Type}

namespace Task

def bind (f : α → Task C R β) : Task C R α → Task C R β
  | done a => f a
  | call c k => call c fun r => bind f (k r)

instance : Monad (Task C R) where
  pure := done
  bind task f := bind f task

/-- One call. -/
def perform (c : C) : Task C R (R c) := call c done

/-- What a task returns when it is over. -/
def result : Task C R α → Option α
  | done a => some a
  | call _ _ => none

theorem eq_done_of_result {task : Task C R α} {a : α} (h : task.result = some a) :
    task = done a := by
  cases task with
  | done b => rw [Option.some.inj h]
  | call c k => cases h

/-! ## What a task keeps -/

/-- After the events `past`, every call meets `Q` and the value returned meets `post`. -/
def Keeps (Q : List (Event T R) → C → Prop) (post : List (Event T R) → α → Prop) :
    List (Event T R) → Task C R α → Prop
  | past, done a => post past a
  | past, call c k => Q past c ∧ ∀ time r, Keeps Q post (past ++ [⟨time, ⟨c, r⟩⟩]) (k r)

variable {Q : List (Event T R) → C → Prop} {past : List (Event T R)} {task : Task C R α}
  {M : List (Event T R) → α → Prop}

theorem Keeps.bind {post : List (Event T R) → β → Prop} {f : α → Task C R β}
    (htask : Keeps Q M past task)
    (hf : ∀ past' a, past <+: past' → M past' a → Keeps Q post past' (f a)) :
    Keeps Q post past (task >>= f) := by
  induction task generalizing past with
  | done a => exact hf past a (List.prefix_refl past) htask
  | call c k ih =>
    obtain ⟨hcall, hk⟩ := htask
    refine ⟨hcall, fun time r => ih r (hk time r) fun past' a hpast hmid => ?_⟩
    exact hf past' a ((List.prefix_append past _).trans hpast) hmid

theorem Keeps.mono {post : List (Event T R) → α → Prop} (htask : Keeps Q M past task)
    (hpost : ∀ past' a, past <+: past' → M past' a → post past' a) :
    Keeps Q post past task := by
  induction task generalizing past with
  | done a => exact hpost past a (List.prefix_refl past) htask
  | call c k ih =>
    obtain ⟨hcall, hk⟩ := htask
    refine ⟨hcall, fun time r => ih r (hk time r) fun past' a hpast hmid => ?_⟩
    exact hpost past' a ((List.prefix_append past _).trans hpast) hmid

/-- Under a weaker condition on the calls, with what the stronger one says of those made. -/
theorem Keeps.weaken {Q' : List (Event T R) → C → Prop} (htask : Keeps Q M past task)
    (hQ : ∀ past c, Q past c → Q' past c) :
    Keeps Q' (fun past' a => M past' a ∧ ∀ e ∈ past', e ∈ past ∨ ∃ before, Q before e.what.1)
      past task := by
  induction task generalizing past with
  | done a => exact ⟨htask, fun e he => Or.inl he⟩
  | call c k ih =>
    obtain ⟨hcall, hk⟩ := htask
    refine ⟨hQ past c hcall, fun time r => (ih r (hk time r)).mono fun past' a _ h => ?_⟩
    refine ⟨h.1, fun e he => ?_⟩
    rcases h.2 e he with hold | hnew
    · rcases List.mem_append.mp hold with hold | hlast
      · exact Or.inl hold
      · rw [List.mem_singleton.mp hlast]
        exact Or.inr ⟨past, hcall⟩
    · exact Or.inr hnew

theorem Keeps.pure {post : List (Event T R) → α → Prop} {a : α} (h : post past a) :
    Keeps Q post past (Pure.pure a) := h

theorem Keeps.perform {c : C} {post : List (Event T R) → R c → Prop} (hcall : Q past c)
    (hpost : ∀ time r, post (past ++ [⟨time, ⟨c, r⟩⟩]) r) :
    Keeps Q post past (perform c) := ⟨hcall, hpost⟩

/-- A step that can fail, followed by one that is only taken when it has not. -/
theorem Keeps.andThen {task : Task C R (Except ε α)} {f : α → ExceptT ε (Task C R) β}
    {M : List (Event T R) → Except ε α → Prop} {post : List (Event T R) → Except ε β → Prop}
    (htask : Keeps Q M past task)
    (herror : ∀ past' e, M past' (.error e) → post past' (.error e))
    (hf : ∀ past' a, past <+: past' → M past' (.ok a) → Keeps Q post past' (f a).run) :
    Keeps Q post past (ExceptT.run (ExceptT.mk task >>= f)) := by
  refine htask.bind fun past' r hpast hmid => ?_
  cases r with
  | error e => exact herror past' e hmid
  | ok a => exact hf past' a hpast hmid

/-! ## A task by itself -/

/-- The task made these calls, was answered so, and returned. -/
inductive Ran : Task C R α → List (Event T R) → α → Prop
  | done (a : α) : Ran (done a) [] a
  | call {c : C} {k : R c → Task C R α} {time : T} {r : R c} {events : List (Event T R)} {a : α}
      (h : Ran (k r) events a) : Ran (call c k) (⟨time, ⟨c, r⟩⟩ :: events) a

/-- Of a run: what was returned, and every call in it. -/
theorem Keeps.ran {post : List (Event T R) → α → Prop} (htask : Keeps Q post past task)
    {events : List (Event T R)} {a : α} (h : Ran task events a) :
    post (past ++ events) a ∧
      ∀ before e after, events = before ++ e :: after → Q (past ++ before) e.what.1 := by
  induction h generalizing past with
  | done a =>
    rw [List.append_nil]
    refine ⟨htask, fun before e after hsplit => ?_⟩
    cases before <;> cases hsplit
  | @call c k time r events a _ ih =>
    obtain ⟨hcall, hk⟩ := htask
    obtain ⟨hpost, hcalls⟩ := ih (hk time r)
    rw [List.append_assoc, List.singleton_append] at hpost
    refine ⟨hpost, fun before e after hsplit => ?_⟩
    cases before with
    | nil =>
      obtain ⟨rfl, -⟩ := List.cons.inj hsplit
      rw [List.append_nil]
      exact hcall
    | cons first before =>
      obtain ⟨rfl, hrest⟩ := List.cons.inj hsplit
      have hlater := hcalls before e after hrest
      rw [List.append_assoc, List.singleton_append] at hlater
      exact hlater

theorem ran_bind {f : α → Task C R β} {events : List (Event T R)} {b : β} :
    Ran (task >>= f) events b ↔
      ∃ first rest a, events = first ++ rest ∧ Ran task first a ∧ Ran (f a) rest b := by
  constructor
  · intro h
    induction task generalizing events with
    | done a => exact ⟨[], events, a, rfl, .done a, h⟩
    | call c k ih =>
      cases h with
      | call h =>
        obtain ⟨first, rest, a, rfl, hfirst, hrest⟩ := ih _ h
        exact ⟨_ :: first, rest, a, rfl, .call hfirst, hrest⟩
  · rintro ⟨first, rest, a, rfl, hfirst, hrest⟩
    induction hfirst with
    | done a => exact hrest
    | call _ ih => exact .call (ih hrest)

/-- The answers decide what is returned. -/
theorem Ran.unique {events : List (Event T R)} {a b : α} (ha : Ran task events a)
    (hb : Ran task events b) : a = b := by
  induction ha with
  | done a =>
    cases hb
    rfl
  | call _ ih =>
    cases hb with
    | call hb => exact ih hb

/-- Of two runs with the same answers, none goes on after the other is over. -/
theorem Ran.endsWith {events rest : List (Event T R)} {a b : α} (ha : Ran task events a)
    (hb : Ran task (events ++ rest) b) : rest = [] ∧ a = b := by
  induction ha with
  | done a =>
    cases hb
    exact ⟨rfl, rfl⟩
  | call _ ih =>
    cases hb with
    | call hb => exact ih hb

/-- The task with its calls answered by a world that changes as it answers. -/
def run {W : Type} (answer : (c : C) → W → R c × W) : Task C R α → W → α × W
  | done a, w => (a, w)
  | call c k, w => run answer (k (answer c w).1) (answer c w).2

/-- Of the value returned, whatever the world answers. -/
theorem Keeps.run {W : Type} {post : α → Prop} (answer : (c : C) → W → R c × W) (time : T)
    (htask : Keeps Q (fun _ a => post a) past task) (w : W) : post (task.run answer w).1 := by
  induction task generalizing past w with
  | done a => exact htask
  | call c k ih => exact ih _ (htask.2 time _) _

end Task

end Task

/-! ## Pools -/

/-- Tasks that take turns, and what has happened so far. -/
structure Pool (ι T : Type) {C : Type} (R : C → Type) (α : Type) where
  tasks : ι → Task C R α
  history : List (ι × Event T R)

section Pool

variable {ι T C α : Type} [DecidableEq ι] {R : C → Type}

/-- The events of one task. -/
def own (i : ι) (history : List (ι × Event T R)) : List (Event T R) :=
  (history.filter fun entry => entry.1 = i).map Prod.snd

theorem mem_own {i : ι} {history : List (ι × Event T R)} {e : Event T R} :
    e ∈ own i history ↔ (i, e) ∈ history := by
  unfold own
  rw [List.mem_map]
  constructor
  · rintro ⟨⟨j, e'⟩, hmem, rfl⟩
    obtain ⟨hmem, hj⟩ := List.mem_filter.mp hmem
    rw [← show j = i from of_decide_eq_true hj]
    exact hmem
  · intro hmem
    exact ⟨(i, e), List.mem_filter.mpr ⟨hmem, decide_eq_true rfl⟩, rfl⟩

theorem own_snoc_self (i : ι) (history : List (ι × Event T R)) (e : Event T R) :
    own i (history ++ [(i, e)]) = own i history ++ [e] := by
  simp [own]

theorem own_snoc_of_ne {i j : ι} (h : j ≠ i) (history : List (ι × Event T R)) (e : Event T R) :
    own i (history ++ [(j, e)]) = own i history := by
  simp [own, h]

/-- Every entry of the history meets `P` in light of what came before it. -/
def Each (P : List (ι × Event T R) → ι → Event T R → Prop) (history : List (ι × Event T R)) : Prop :=
  ∀ before i e after, history = before ++ (i, e) :: after → P before i e

omit [DecidableEq ι] in
theorem each_snoc {P : List (ι × Event T R) → ι → Event T R → Prop}
    {history : List (ι × Event T R)} {i : ι} {e : Event T R} (h : Each P history)
    (hlast : P history i e) : Each P (history ++ [(i, e)]) := by
  intro before j e' after hsplit
  rcases List.eq_nil_or_concat after with rfl | ⟨after, last, rfl⟩
  · obtain ⟨rfl, hentry⟩ := List.append_inj' hsplit rfl
    obtain ⟨rfl, rfl⟩ := Prod.mk.inj (List.head_eq_of_cons_eq hentry)
    exact hlast
  · refine h before j e' after ?_
    rw [List.concat_eq_append, ← List.cons_append, ← List.append_assoc] at hsplit
    exact (List.append_inj' hsplit rfl).1

/-- What a call may be answered with, after what has happened. -/
abbrev Answers (ι T : Type) {C : Type} (R : C → Type) : Type :=
  List (ι × Event T R) → ι → Event T R → Prop

namespace Pool

/-- Nothing has happened yet. -/
def start (tasks : ι → Task C R α) : Pool ι T R α where
  tasks := tasks
  history := []

/-- The pool after the call of task `i` was answered by `r`. -/
def answered (p : Pool ι T R α) (i : ι) (time : T) (c : C) (r : R c) (k : R c → Task C R α) :
    Pool ι T R α where
  tasks := Function.update p.tasks i (k r)
  history := p.history ++ [(i, ⟨time, ⟨c, r⟩⟩)]

theorem tasks_answered_self (p : Pool ι T R α) (i : ι) (time : T) (c : C) (r : R c)
    (k : R c → Task C R α) : (p.answered i time c r k).tasks i = k r :=
  Function.update_self _ _ _

theorem tasks_answered_of_ne {i j : ι} (h : i ≠ j) (p : Pool ι T R α) (time : T) (c : C) (r : R c)
    (k : R c → Task C R α) : (p.answered i time c r k).tasks j = p.tasks j :=
  Function.update_of_ne h.symm _ _

/-- Some task has its call answered. -/
def Step (answers : Answers ι T R) (p p' : Pool ι T R α) : Prop :=
  ∃ i time c r k, p.tasks i = .call c k ∧ answers p.history i ⟨time, ⟨c, r⟩⟩ ∧
    p' = p.answered i time c r k

/-- Every pool that some order of turns and some answers lead to. -/
def Reaches (answers : Answers ι T R) (tasks : ι → Task C R α) (p : Pool ι T R α) : Prop :=
  Relation.ReflTransGen (Step answers) (start tasks) p

variable {answers : Answers ι T R} {tasks : ι → Task C R α} {p : Pool ι T R α}

/-- More answers, more runs. -/
theorem Reaches.mono {answers' : Answers ι T R}
    (hanswers : ∀ history i e, answers history i e → answers' history i e)
    (h : Reaches answers tasks p) : Reaches answers' tasks p := by
  induction h with
  | refl => exact .refl
  | tail _ hstep ih =>
    obtain ⟨i, time, c, r, k, htask, hanswer, rfl⟩ := hstep
    exact ih.tail ⟨i, time, c, r, k, htask, hanswers _ _ _ hanswer, rfl⟩

/-- Every event was answered as the events before it allow. -/
theorem Reaches.answered (h : Reaches answers tasks p) : Each answers p.history := by
  induction h with
  | refl =>
    intro before i e after hsplit
    cases before <;> cases hsplit
  | tail _ hstep ih =>
    obtain ⟨i, time, c, r, k, -, hanswer, rfl⟩ := hstep
    exact each_snoc ih hanswer

variable {Q : ι → List (Event T R) → C → Prop} {post : ι → List (Event T R) → α → Prop}

/-- What holds of each task by itself: it keeps what it keeps, and each of its calls met the
    condition when it was made. -/
theorem Reaches.keeps (h : Reaches answers tasks p)
    (htasks : ∀ i, (tasks i).Keeps (Q i) (post i) []) :
    (∀ i, (p.tasks i).Keeps (Q i) (post i) (own i p.history)) ∧
      Each (fun before i e => Q i (own i before) e.what.1) p.history := by
  induction h with
  | refl =>
    refine ⟨htasks, fun before i e after hsplit => ?_⟩
    cases before <;> cases hsplit
  | tail _ hstep ih =>
    obtain ⟨i, time, c, r, k, htask, -, rfl⟩ := hstep
    obtain ⟨hkeeps, hcalls⟩ := ih
    have hi := hkeeps i
    rw [htask] at hi
    refine ⟨fun j => ?_, each_snoc hcalls hi.1⟩
    by_cases hj : i = j
    · subst hj
      rw [tasks_answered_self, Pool.answered, own_snoc_self]
      exact hi.2 time r
    · rw [tasks_answered_of_ne hj, Pool.answered, own_snoc_of_ne hj]
      exact hkeeps j

/-! ## Runs that are given -/

/-- The pool after task `i` was executed to its end. -/
def executed (p : Pool ι T R α) (i : ι) (events : List (Event T R)) (a : α) : Pool ι T R α where
  tasks := Function.update p.tasks i (.done a)
  history := p.history ++ events.map fun e => (i, e)

/-- The events of task `i` after a history are answered as they may be. -/
def Answering (answers : Answers ι T R) (i : ι) : List (ι × Event T R) → List (Event T R) → Prop
  | _, [] => True
  | history, e :: events => answers history i e ∧ Answering answers i (history ++ [(i, e)]) events

/-- One task may make all its calls while the others wait. -/
theorem Reaches.executed {p : Pool ι T R α} (h : Reaches answers tasks p) {i : ι}
    {task : Task C R α} {events : List (Event T R)} {a : α} (htask : p.tasks i = task)
    (hran : task.Ran events a)
    (hanswers : Answering answers i p.history events) :
    Reaches answers tasks (p.executed i events a) := by
  induction hran generalizing p with
  | done a =>
    have hsame : p.executed i [] a = p := by
      rw [Pool.executed, ← htask, Function.update_eq_self, List.map_nil, List.append_nil]
    rw [hsame]
    exact h
  | @call c k time r events a _ ih =>
    obtain ⟨hfirst, hrest⟩ := hanswers
    have hstep : Reaches answers tasks (p.answered i time c r k) :=
      h.tail ⟨i, time, c, r, k, htask, hfirst, rfl⟩
    have hlater := ih hstep (tasks_answered_self p i time c r k) hrest
    have hsame : (p.answered i time c r k).executed i events a =
        p.executed i (⟨time, ⟨c, r⟩⟩ :: events) a := by
      simp only [Pool.executed, Pool.answered, Function.update_idem, List.map_cons,
        List.append_assoc, List.singleton_append]
    rw [← hsame]
    exact hlater

end Pool

end Pool

end Tasks
