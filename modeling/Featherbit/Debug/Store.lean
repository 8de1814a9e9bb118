/-
  THE TRACE STORE (`debug/store.rs`): is its list the newest-first tail?

  A traced request takes a sequence number and then records its trace, in two steps, and other
  requests and calls of `clear` come in between.  The buffer is in the order of the `record` calls:
  it is always the last `max_traces` traces recorded since the last `clear` (`StoreInv.buffer`).  So
  the list is in descending order of the numbers, and holds the highest ones, exactly as long as the
  traces are recorded in the order of their numbers (`newestFirst_iff`).
-/
import Mathlib
import Featherbit.Debug.Recorder
import Featherbit.Lib.Interleave

namespace Featherbit

/-- Row shape for the trace list view. -/
structure TraceSummary where
  id : String
  seq : UInt64
  source : TraceSource
  route : Option String
  policy : String
  method : String
  path : String
  status : UInt16
  stepCount : Nat
  errorCount : Nat
  capturedBodies : Bool

def Trace.summary (trace : Trace) : TraceSummary where
  id := trace.id
  seq := trace.seq
  source := trace.source
  route := trace.route
  policy := trace.policy
  method := trace.method
  path := trace.path
  status := trace.status
  stepCount := trace.steps.length
  errorCount := (trace.steps.getLast?.map fun step => step.after.errors.length).getD 0
  capturedBodies := trace.capturedBodies

/-- The trace buffer, oldest first, and the counter of sequence numbers. -/
structure DebugState where
  maxTraces : Nat
  traces : List Trace
  seq : UInt64

namespace DebugState

/-- `DebugState::new`. -/
def new (maxTraces : Nat) : DebugState := { maxTraces := maxTraces, traces := [], seq := 0 }

/-- `fetch_add`: the number before, and the counter after. -/
def nextSeq (s : DebugState) : UInt64 × DebugState := (s.seq, { s with seq := s.seq + 1 })

/-- `while buf.len() >= max_traces { buf.pop_front() }`. -/
def evict (maxTraces : Nat) : List Trace → List Trace
  | [] => []
  | trace :: traces =>
    if (trace :: traces).length ≥ maxTraces then evict maxTraces traces else trace :: traces

/-- Stores a trace, evicting the oldest entries beyond `max_traces`. -/
def record (s : DebugState) (trace : Trace) : DebugState :=
  if s.maxTraces = 0 then s
  else { s with traces := evict s.maxTraces s.traces ++ [trace] }

/-- Summaries, newest first. -/
def list (s : DebugState) : List TraceSummary := s.traces.reverse.map Trace.summary

/-- Empties the buffer, returning how many traces were dropped. -/
def clear (s : DebugState) : Nat × DebugState := (s.traces.length, { s with traces := [] })

theorem evict_eq_drop (maxTraces : Nat) (traces : List Trace) :
    evict maxTraces traces = traces.drop (traces.length + 1 - maxTraces) := by
  induction traces with
  | nil => simp [evict]
  | cons trace traces ih =>
    rw [evict]
    split
    · rename_i hfull
      rw [ih, List.length_cons, show traces.length + 1 + 1 - maxTraces =
        (traces.length + 1 - maxTraces) + 1 by rw [List.length_cons] at hfull; omega,
        List.drop_succ_cons]
    · rename_i hroom
      rw [List.length_cons] at hroom ⊢
      rw [show traces.length + 1 + 1 - maxTraces = 0 by omega, List.drop_zero]

/-- The last `max_traces` traces, and one more: the last `max_traces` of them all. -/
theorem record_tail {s : DebugState} {recorded : List Trace} (trace : Trace)
    (h : s.traces = recorded.drop (recorded.length - s.maxTraces)) :
    (s.record trace).traces =
      (recorded ++ [trace]).drop ((recorded ++ [trace]).length - s.maxTraces) := by
  unfold record
  split
  · rename_i hzero
    rw [h, hzero]
    simp
  · show evict s.maxTraces s.traces ++ [trace] = _
    rw [evict_eq_drop, h, List.drop_drop, List.length_drop,
      List.length_append, List.length_singleton,
      List.drop_append_of_le_length (by omega)]
    congr 2
    omega

end DebugState

/-! ## Requests and `clear` calls -/

/-- A recording that is ready to be sealed. -/
structure TracedRun where
  recorder : TraceRecorder
  id : String
  source : TraceSource
  route : Option String
  policy : String
  finalCtx : Context

/-- The trace it becomes under a number. -/
def TracedRun.trace (run : TracedRun) (seq : UInt64) : Trace :=
  run.recorder.finish run.id seq run.source run.route run.policy run.finalCtx

inductive StoreCall where
  /-- a traced request: a number, and then `record` -/
  | request (run : TracedRun)
  | clear

inductive StorePc where
  | start
  | numbered (seq : UInt64)
  | done
deriving DecidableEq

/-- The store, and what was recorded since the last `clear`. -/
structure StoreState where
  debug : DebugState
  recorded : List Trace

section System

variable {ι : Type} (calls : ι → StoreCall)

/-- The next atomic step of a call. -/
def StoreCall.step : StoreCall → StorePc → StoreState → Option (StorePc × StoreState)
  | .request _, .start, s =>
    some (.numbered s.debug.nextSeq.1, { s with debug := s.debug.nextSeq.2 })
  | .request run, .numbered seq, s =>
    some (.done, { debug := s.debug.record (run.trace seq), recorded := s.recorded ++ [run.trace seq] })
  | .clear, .start, s => some (.done, { debug := s.debug.clear.2, recorded := [] })
  | _, _, _ => none

def storeSystem : Interleave.System ι StorePc StoreState where
  step i := (calls i).step

/-- No call has come yet. -/
def storeStart (maxTraces : Nat) : Interleave.Config ι StorePc StoreState where
  threads _ := .start
  shared := { debug := DebugState.new maxTraces, recorded := [] }

/-- The list is in strictly descending order, has at most `maxTraces` rows, and is what is left of
    the traces recorded since the last `clear` without some that all have lower numbers. -/
structure NewestFirst (maxTraces : Nat) (s : StoreState) : Prop where
  descending : s.debug.list.Pairwise fun a b => a.seq > b.seq
  bounded : s.debug.list.length ≤ maxTraces
  highest : s.debug.list.length = min maxTraces s.recorded.length ∧ ∃ rest : List Trace,
    List.Perm (s.debug.list ++ rest.map Trace.summary) (s.recorded.map Trace.summary) ∧
    ∀ t ∈ rest, ∀ row ∈ s.debug.list, t.seq < row.seq

/-- The step records nothing out of order: a trace that goes into the buffer has a higher number
    than all that were recorded since the last `clear`. -/
def InOrder (maxTraces : Nat) (i : ι) (c : Interleave.Config ι StorePc StoreState) : Prop :=
  maxTraces = 0 ∨ ∀ run seq, calls i = .request run → c.threads i = .numbered seq →
    ∀ t ∈ c.shared.recorded, t.seq < seq

end System

section Run

variable {ι : Type} [DecidableEq ι] {calls : ι → StoreCall} {maxTraces : Nat} {i : ι}
  {c c' : Interleave.Config ι StorePc StoreState}

/-- What a step did to the store. -/
theorem storeStep_cases (h : (storeSystem calls).fire i c = some c') :
    (c'.shared.recorded = c.shared.recorded ∧ c'.shared.debug = c.shared.debug.nextSeq.2 ∧
      c.threads i = .start) ∨
    (∃ run seq, calls i = .request run ∧ c.threads i = .numbered seq ∧
      c'.shared.recorded = c.shared.recorded ++ [run.trace seq] ∧
      c'.shared.debug = c.shared.debug.record (run.trace seq)) ∨
    (c'.shared.recorded = [] ∧ c'.shared.debug = c.shared.debug.clear.2 ∧
      c.threads i = .start) := by
  obtain ⟨⟨pc, s⟩, hstep, rfl⟩ := Option.map_eq_some_iff.mp h
  have hstep : (calls i).step (c.threads i) c.shared = some (pc, s) := hstep
  cases hcall : calls i with
  | request run =>
    rw [hcall] at hstep
    cases hpc : c.threads i with
    | start =>
      rw [hpc] at hstep
      obtain ⟨rfl, rfl⟩ := Prod.mk.inj (Option.some.inj hstep)
      exact Or.inl ⟨rfl, rfl, rfl⟩
    | numbered seq =>
      rw [hpc] at hstep
      obtain ⟨rfl, rfl⟩ := Prod.mk.inj (Option.some.inj hstep)
      exact Or.inr (Or.inl ⟨run, seq, rfl, rfl, rfl, rfl⟩)
    | done =>
      rw [hpc] at hstep
      cases hstep
  | clear =>
    rw [hcall] at hstep
    cases hpc : c.threads i with
    | start =>
      rw [hpc] at hstep
      obtain ⟨rfl, rfl⟩ := Prod.mk.inj (Option.some.inj hstep)
      exact Or.inr (Or.inr ⟨rfl, rfl, rfl⟩)
    | numbered | done =>
      rw [hpc] at hstep
      cases hstep

/-- The buffer is the tail of what was recorded since the last `clear`. -/
structure StoreInv (maxTraces : Nat) (s : StoreState) : Prop where
  size : s.debug.maxTraces = maxTraces
  buffer : s.debug.traces = s.recorded.drop (s.recorded.length - maxTraces)

/-- In every run, in order or not. -/
theorem storeInv_step (h : StoreInv maxTraces c.shared)
    (hfire : (storeSystem calls).fire i c = some c') : StoreInv maxTraces c'.shared := by
  obtain ⟨hsize, hbuffer⟩ := h
  rcases storeStep_cases hfire with
    ⟨hrecorded, hdebug, -⟩ | ⟨run, seq, -, -, hrecorded, hdebug⟩ | ⟨hrecorded, hdebug, -⟩
  · constructor
    · rw [hdebug]
      exact hsize
    · rw [hdebug, hrecorded]
      exact hbuffer
  · subst hsize
    constructor
    · rw [hdebug]
      unfold DebugState.record
      split <;> rfl
    · rw [hdebug, hrecorded]
      exact DebugState.record_tail _ hbuffer
  · constructor
    · rw [hdebug]
      exact hsize
    · rw [hdebug, hrecorded]
      simp [DebugState.clear]

/-- What was recorded is in the order of its numbers, if there is a buffer at all. -/
def Ascending (maxTraces : Nat) (s : StoreState) : Prop :=
  maxTraces = 0 ∨ s.recorded.Pairwise fun t u => t.seq < u.seq

theorem ascending_step (h : Ascending maxTraces c.shared) (hq : InOrder calls maxTraces i c)
    (hfire : (storeSystem calls).fire i c = some c') : Ascending maxTraces c'.shared := by
  rcases h with hzero | hsorted
  · exact Or.inl hzero
  · rcases storeStep_cases hfire with
      ⟨hrecorded, -, -⟩ | ⟨run, seq, hcall, hpc, hrecorded, -⟩ | ⟨hrecorded, -, -⟩
    · right
      rw [hrecorded]
      exact hsorted
    · rcases hq with hzero | hq
      · exact Or.inl hzero
      · right
        rw [hrecorded]
        refine List.pairwise_append.mpr ⟨hsorted, List.pairwise_singleton _ _, ?_⟩
        intro t ht u hu
        obtain rfl := List.mem_singleton.mp hu
        exact hq run seq hcall hpc t ht
    · right
      rw [hrecorded]
      exact List.Pairwise.nil

/-- A tail in the order of the numbers is the newest-first tail. -/
theorem StoreInv.newestFirst {s : StoreState} (h : StoreInv maxTraces s)
    (hsorted : Ascending maxTraces s) : NewestFirst maxTraces s := by
  have hlength : s.debug.list.length = min maxTraces s.recorded.length := by
    rw [DebugState.list, List.length_map, List.length_reverse, h.buffer, List.length_drop]
    omega
  rcases hsorted with rfl | hsorted
  · have hempty : s.debug.list = [] := List.eq_nil_of_length_eq_zero (by rw [hlength]; omega)
    refine ⟨?_, by rw [hempty]; exact Nat.le_refl 0, hlength, s.recorded, ?_, ?_⟩
    · rw [hempty]
      exact List.Pairwise.nil
    · rw [hempty, List.nil_append]
    · intro t _ row hrow
      rw [hempty] at hrow
      cases hrow
  · -- `rest` is what was evicted, and everything in it came before the tail
    have hsplit := List.take_append_drop (s.recorded.length - maxTraces) s.recorded
    rw [← hsplit] at hsorted
    obtain ⟨-, htail, hcross⟩ := List.pairwise_append.mp hsorted
    refine ⟨?_, by omega, hlength, s.recorded.take (s.recorded.length - maxTraces), ?_, ?_⟩
    · rw [DebugState.list, h.buffer, List.pairwise_map, List.pairwise_reverse]
      exact htail
    · rw [DebugState.list, h.buffer, ← List.map_append]
      refine List.Perm.map _ ?_
      refine (List.perm_append_comm).trans ?_
      refine (List.Perm.append_left _ (List.reverse_perm _)).trans ?_
      rw [hsplit]
    · intro t ht row hrow
      rw [DebugState.list, h.buffer] at hrow
      obtain ⟨u, hu, rfl⟩ := List.mem_map.mp hrow
      exact hcross t ht u (List.mem_reverse.mp hu)

/-- A trace that is recorded out of order spoils the list. -/
theorem inOrder_of_newestFirst (h : StoreInv maxTraces c.shared)
    (hfire : (storeSystem calls).fire i c = some c') (hnewest : NewestFirst maxTraces c'.shared) :
    InOrder calls maxTraces i c := by
  rcases Nat.eq_zero_or_pos maxTraces with hzero | hpos
  · exact Or.inl hzero
  · right
    intro run seq hcall hpc t ht
    rcases storeStep_cases hfire with
      ⟨-, -, hstart⟩ | ⟨run', seq', hcall', hpc', hrecorded, hdebug⟩ | ⟨-, -, hstart⟩
    · rw [hpc] at hstart
      cases hstart
    · rw [hcall] at hcall'
      rw [hpc] at hpc'
      obtain rfl := StoreCall.request.inj hcall'
      obtain rfl := StorePc.numbered.inj hpc'
      have hsize := h.size
      subst hsize
      -- the new trace is the first row; everything else comes after it, or was evicted
      obtain ⟨older, hlist⟩ : ∃ older, c'.shared.debug.list = (run.trace seq).summary :: older := by
        rw [DebugState.list, hdebug, DebugState.record, if_neg (Nat.pos_iff_ne_zero.mp hpos)]
        simp
      obtain ⟨rest, hperm, hrest⟩ := hnewest.highest.2
      have hdescending := hnewest.descending
      rw [hlist] at hdescending hperm hrest
      rw [hrecorded, List.map_append] at hperm
      have hothers : List.Perm (older ++ rest.map Trace.summary)
          (c.shared.recorded.map Trace.summary) :=
        (hperm.trans List.perm_append_comm).cons_inv
      have hmem := hothers.mem_iff.mpr (List.mem_map_of_mem (f := Trace.summary) ht)
      rcases List.mem_append.mp hmem with holder | hevicted
      · exact (List.pairwise_cons.mp hdescending).1 _ holder
      · obtain ⟨r, hr, hsame⟩ := List.mem_map.mp hevicted
        have hlt := hrest r hr _ List.mem_cons_self
        have hseq : r.seq = t.seq := congrArg TraceSummary.seq hsame
        rw [← hseq]
        exact hlt
    · rw [hpc] at hstart
      cases hstart

/-- **When the list is the newest-first tail.**  It is in every state of every run in which no trace
    is recorded out of order; and every step that records one out of order ends in a state in which
    it is not. -/
theorem newestFirst_iff (calls : ι → StoreCall) (maxTraces : Nat) :
    (∀ c, (storeSystem calls).ReachesWhen (InOrder calls maxTraces) (storeStart maxTraces) c →
      NewestFirst maxTraces c.shared) ∧
    (∀ c i c', (storeSystem calls).Reaches (storeStart maxTraces) c →
      (storeSystem calls).fire i c = some c' → ¬ InOrder calls maxTraces i c →
      ¬ NewestFirst maxTraces c'.shared) := by
  have hstart : StoreInv maxTraces (storeStart (ι := ι) maxTraces).shared :=
    ⟨rfl, by simp [storeStart, DebugState.new]⟩
  constructor
  · intro c hreach
    obtain ⟨hinv, hsorted⟩ := Interleave.System.reachesWhen_invariant
      (P := fun c => StoreInv maxTraces c.shared ∧ Ascending maxTraces c.shared)
      (fun i c c' h hq hfire => ⟨storeInv_step h.1 hfire, ascending_step h.2 hq hfire⟩) hreach
      ⟨hstart, Or.inr List.Pairwise.nil⟩
    exact hinv.newestFirst hsorted
  · intro c i c' hreach hfire hlate hnewest
    have hinv : StoreInv maxTraces c.shared := Interleave.System.reaches_invariant
      (P := fun c => StoreInv maxTraces c.shared) (fun i c c' h hfire => storeInv_step h hfire)
      hreach hstart
    exact hlate (inOrder_of_newestFirst hinv hfire hnewest)

end Run

/-! ## Two requests that overtake -/

/-- A traced request with nothing in it. -/
def emptyRun [CaseMapping] (id : String) : TracedRun where
  recorder := TraceRecorder.new (Context.new default) .default 10
  id := id
  source := .request
  route := none
  policy := "p"
  finalCtx := Context.new default

/-- Two requests; the first to take a number is the last to record. -/
def overtaking [CaseMapping] (first : Bool) : StoreCall :=
  .request (emptyRun (if first then "first" else "second"))

/-- The list has number 0 before number 1. -/
theorem overtaken_list :
    let _ : CaseMapping := asciiCaseMapping
    ∃ c, (storeSystem overtaking).Reaches (storeStart 2) c ∧
      c.shared.debug.list.map TraceSummary.seq = [0, 1] ∧ ¬ NewestFirst 2 c.shared := by
  intro _
  refine ⟨_, Interleave.System.reaches_of_run [true, false, false, true] rfl, rfl, fun h => ?_⟩
  have hdescending := (List.pairwise_map (f := TraceSummary.seq)
    (R := fun a b => a > b)).mpr h.descending
  revert hdescending
  show ¬ List.Pairwise _ [(0 : UInt64), 1]
  decide

end Featherbit
