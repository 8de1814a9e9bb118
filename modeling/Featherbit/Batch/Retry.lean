/-
  ONE FLUSH AND ITS RETRIES (`flush_with_retry`, `batch/mod.rs`), for any answers of the flusher.

  1. **What remains** of a batch after some answers is a matter of the answers alone: `Ok` leaves nothing,
     an error leaves what comes from its `first_fail` on (`remaining`).

  2. **The loop** (`after`) takes one answer after the other.  As long as something remains and there are
     retries left it is in front of its next call, and its calls were given what remained (`after_calling`);
     then it returns, once and for all (`after_returned`).

  3. **The counter** of the failures is a `u32`, compared after it was counted up.  A count of retries below
     `u32::MAX` ends the loop; at `u32::MAX` the comparison never holds, and only the answers can
     (`flushes_iff`).
-/
import Mathlib
import Featherbit.Batch.Sink

namespace Featherbit

/-- What a call delivered, as it was reported. -/
def Flushing.reported (flush : Flushing) : Except FlushError Unit → List Json
  | .ok () => flush.entries
  | .error err => flush.entries.take (err.firstFail.getD 0)

/-- What a batch still holds after an answer. -/
def remainingOf (entries : List Json) : Except FlushError Unit → List Json
  | .ok () => []
  | .error err => entries.drop (err.firstFail.getD 0)

/-- Where `flush_with_retry` is. -/
inductive FlushState where
  /-- the flusher works on the entries -/
  | calling (flush : Flushing)
  /-- back, without these -/
  | returned (dropped : List Json)

/-- An execution of `flush_with_retry`. -/
structure FlushRun where
  /-- what the flusher was given, call by call -/
  calls : List (List Json)
  /-- what it reported as delivered -/
  reported : List Json
  state : FlushState

namespace FlushRun

/-- The first call, unless there is nothing to flush. -/
def start (buffer : List Json) : FlushRun :=
  if buffer = [] then { calls := [], reported := [], state := .returned [] }
  else
    { calls := [buffer], reported := [], state := .calling { entries := buffer, failures := 0 } }

/-- The flusher answers. -/
def step (maxRetryCount : UInt32) (run : FlushRun) (answer : Except FlushError Unit) : FlushRun :=
  match run.state with
  | .returned _ => run
  | .calling flush =>
    match flush.next maxRetryCount answer with
    | some next =>
      { calls := run.calls ++ [next.entries]
        reported := run.reported ++ flush.reported answer
        state := .calling next }
    | none =>
      { calls := run.calls
        reported := run.reported ++ flush.reported answer
        state := .returned (remainingOf flush.entries answer) }

section Run

variable (maxRetryCount : UInt32) (buffer : List Json) (answers : Nat → Except FlushError Unit)

/-- The execution after some answers. -/
def after : Nat → FlushRun
  | 0 => start buffer
  | n + 1 => (after n).step maxRetryCount (answers n)

/-- What remains of the batch after some answers. -/
def remaining : Nat → List Json
  | 0 => buffer
  | n + 1 => remainingOf (remaining n) (answers n)

/-- What one flush of a batch promises, whatever the flusher answers. -/
structure Flushes : Prop where
  /-- a first call, and `max_retry_count` more -/
  atMost : ∀ n, (after maxRetryCount buffer answers n).calls.length ≤ maxRetryCount.toNat + 1
  /-- a call is given a suffix of what the one before it was given -/
  suffixes : ∀ n i call next, (after maxRetryCount buffer answers n).calls[i]? = some call →
    (after maxRetryCount buffer answers n).calls[i + 1]? = some next → next <:+ call
  /-- what comes before a `first_fail` is left out of every later call -/
  notAgain : ∀ n i j call later err firstFail, i < j →
    (after maxRetryCount buffer answers n).calls[i]? = some call →
    (after maxRetryCount buffer answers n).calls[j]? = some later →
    answers i = .error err → err.firstFail = some firstFail →
    ∃ skipped, min firstFail call.length ≤ skipped ∧ later = call.drop skipped
  /-- it returns, and from then on nothing changes -/
  returns : ∃ n dropped, (after maxRetryCount buffer answers n).state = .returned dropped
  /-- the batch was reported, or it is dropped when the retries are used up -/
  accounted : ∀ n dropped, (after maxRetryCount buffer answers n).state = .returned dropped →
    (after maxRetryCount buffer answers n).reported ++ dropped = buffer ∧
      (dropped ≠ [] →
        (after maxRetryCount buffer answers n).calls.length = maxRetryCount.toNat + 1)

end Run

/-! ## What remains -/

section Remaining

variable {buffer : List Json} {answers : Nat → Except FlushError Unit}

/-- What an answer leaves is the end of the entries. -/
theorem remainingOf_eq_drop (entries : List Json) (answer : Except FlushError Unit) :
    ∃ skipped, remainingOf entries answer = entries.drop skipped := by
  cases answer with
  | ok _ => exact ⟨entries.length, (List.drop_length).symm⟩
  | error err => exact ⟨_, rfl⟩

/-- What is reported and what is left are the entries. -/
theorem reported_append_remainingOf (flush : Flushing) (answer : Except FlushError Unit) :
    flush.reported answer ++ remainingOf flush.entries answer = flush.entries := by
  cases answer with
  | ok _ => exact List.append_nil _
  | error err => exact List.take_append_drop _ _

/-- Later, less of the same remains. -/
theorem remaining_drop {i j : Nat} (hij : i ≤ j) :
    ∃ skipped, remaining buffer answers j = (remaining buffer answers i).drop skipped := by
  induction j with
  | zero =>
    obtain rfl := Nat.le_zero.mp hij
    exact ⟨0, rfl⟩
  | succ j ih =>
    rcases Nat.eq_or_lt_of_le hij with rfl | hlt
    · exact ⟨0, rfl⟩
    · obtain ⟨skipped, hskipped⟩ := ih (Nat.le_of_lt_succ hlt)
      obtain ⟨more, hmore⟩ := remainingOf_eq_drop (remaining buffer answers j) (answers j)
      refine ⟨skipped + more, ?_⟩
      show remainingOf (remaining buffer answers j) (answers j) = _
      rw [hmore, hskipped, List.drop_drop]

/-- Where something remains, something remained before. -/
theorem remaining_ne_nil {i j : Nat} (hij : i ≤ j) (h : remaining buffer answers j ≠ []) :
    remaining buffer answers i ≠ [] := by
  obtain ⟨skipped, hskipped⟩ := remaining_drop hij
  intro hnil
  apply h
  rw [hskipped, hnil, List.drop_nil]

end Remaining

/-! ## The loop -/

section Loop

variable {maxRetryCount : UInt32} {buffer : List Json} {answers : Nat → Except FlushError Unit}

/-- The failures before the `n`-th call, as they are counted. -/
theorem failures_exceed {n : Nat} (hn : n ≤ maxRetryCount.toNat) (hmax : maxRetryCount.toNat < 2 ^ 32 - 1) :
    UInt32.ofNat n + 1 > maxRetryCount ↔ maxRetryCount.toNat ≤ n := by
  have hsucc : (UInt32.ofNat n + 1).toNat = n + 1 := by
    rw [UInt32.toNat_add, UInt32.toNat_ofNat']
    show (n % 2 ^ 32 + 1) % 2 ^ 32 = n + 1
    omega
  rw [gt_iff_lt, UInt32.lt_iff_toNat_lt, hsucc]
  omega

/-- Another call, or nothing when it returns. -/
theorem next_eq (flush : Flushing) (answer : Except FlushError Unit) :
    flush.next maxRetryCount answer =
      if remainingOf flush.entries answer = [] ∨ flush.failures + 1 > maxRetryCount then none
      else some { entries := remainingOf flush.entries answer, failures := flush.failures + 1 } := by
  cases answer with
  | ok _ => exact (if_pos (Or.inl rfl)).symm
  | error err =>
    by_cases hnil : remainingOf flush.entries (.error err) = []
    · rw [if_pos (Or.inl hnil)]
      exact if_pos hnil
    · by_cases hexceed : flush.failures + 1 > maxRetryCount
      · rw [if_pos (Or.inr hexceed)]
        exact (if_neg hnil).trans (if_pos hexceed)
      · rw [if_neg (not_or.mpr ⟨hnil, hexceed⟩)]
        exact (if_neg hnil).trans (if_neg hexceed)

/-- What the loop does next, in front of a call. -/
theorem step_calling {run : FlushRun} {flush : Flushing} (hstate : run.state = .calling flush)
    (answer : Except FlushError Unit) :
    run.step maxRetryCount answer =
      if remainingOf flush.entries answer = [] ∨ flush.failures + 1 > maxRetryCount then
        { calls := run.calls
          reported := run.reported ++ flush.reported answer
          state := .returned (remainingOf flush.entries answer) }
      else
        { calls := run.calls ++ [remainingOf flush.entries answer]
          reported := run.reported ++ flush.reported answer
          state := .calling { entries := remainingOf flush.entries answer
                              failures := flush.failures + 1 } } := by
  unfold step
  rw [hstate]
  dsimp only
  rw [next_eq]
  by_cases h : remainingOf flush.entries answer = [] ∨ flush.failures + 1 > maxRetryCount
  · rw [if_pos h, if_pos h]
  · rw [if_neg h, if_neg h]

/-- In front of a call: every call so far was given what remained, and nothing was lost. -/
structure Calling (buffer : List Json) (answers : Nat → Except FlushError Unit) (n : Nat) (run : FlushRun) :
    Prop where
  calls : run.calls = (List.range (n + 1)).map (remaining buffer answers)
  conserved : run.reported ++ remaining buffer answers n = buffer
  state : run.state = .calling { entries := remaining buffer answers n, failures := UInt32.ofNat n }

/-- As long as something remains and there are retries left, there is another call. -/
theorem after_calling {n : Nat} (hremains : remaining buffer answers n ≠ [])
    (hn : n ≤ maxRetryCount.toNat ∨ maxRetryCount.toNat = 2 ^ 32 - 1) :
    Calling buffer answers n (after maxRetryCount buffer answers n) := by
  induction n with
  | zero =>
    have hbuffer : buffer ≠ [] := hremains
    show Calling buffer answers 0 (start buffer)
    unfold start
    rw [if_neg hbuffer]
    exact ⟨rfl, rfl, rfl⟩
  | succ n ih =>
    have hbefore := ih (remaining_ne_nil (Nat.le_succ n) hremains)
      (hn.imp_left fun h => Nat.le_of_succ_le h)
    have hnext : ¬ UInt32.ofNat n + 1 > maxRetryCount := by
      rcases hn with hn | hmax
      · have hlt := maxRetryCount.toNat_lt
        by_cases hmax : maxRetryCount.toNat < 2 ^ 32 - 1
        · rw [failures_exceed (Nat.le_of_succ_le hn) hmax]
          omega
        · rw [gt_iff_lt, UInt32.lt_iff_toNat_lt]
          have hsucc := (UInt32.ofNat n + 1).toNat_lt
          omega
      · rw [gt_iff_lt, UInt32.lt_iff_toNat_lt]
        have hsucc := (UInt32.ofNat n + 1).toNat_lt
        omega
    have hstep := (step_calling hbefore.state (answers n)).trans (if_neg (not_or.mpr ⟨hremains, hnext⟩))
    show Calling buffer answers (n + 1) ((after maxRetryCount buffer answers n).step maxRetryCount (answers n))
    rw [hstep]
    refine ⟨?_, ?_, ?_⟩
    · show (after maxRetryCount buffer answers n).calls ++ [remaining buffer answers (n + 1)] = _
      rw [hbefore.calls, List.range_succ (n := n + 1), List.map_append]
      rfl
    · show (after maxRetryCount buffer answers n).reported ++
        Flushing.reported { entries := remaining buffer answers n, failures := _ } (answers n) ++
          remainingOf (remaining buffer answers n) (answers n) = buffer
      rw [List.append_assoc, reported_append_remainingOf]
      exact hbefore.conserved
    · show FlushState.calling { entries := remaining buffer answers (n + 1)
                                failures := UInt32.ofNat n + 1 } = _
      rw [UInt32.ofNat_add]
      rfl

/-- Back: some calls were given what remained, and the rest is dropped. -/
structure Returned (buffer : List Json) (answers : Nat → Except FlushError Unit) (n : Nat) (run : FlushRun) :
    Prop where
  calls : run.calls = (List.range n).map (remaining buffer answers)
  conserved : run.reported ++ remaining buffer answers n = buffer
  state : run.state = .returned (remaining buffer answers n)

/-- An answer that leaves nothing, or the last one. -/
theorem after_returned {n : Nat} {run : FlushRun} (h : Calling buffer answers n run)
    (hend : remaining buffer answers (n + 1) = [] ∨ UInt32.ofNat n + 1 > maxRetryCount) :
    Returned buffer answers (n + 1) (run.step maxRetryCount (answers n)) := by
  rw [(step_calling h.state (answers n)).trans (if_pos hend)]
  refine ⟨h.calls, ?_, rfl⟩
  show run.reported ++
    Flushing.reported { entries := remaining buffer answers n, failures := _ } (answers n) ++
      remainingOf (remaining buffer answers n) (answers n) = buffer
  rw [List.append_assoc, reported_append_remainingOf]
  exact h.conserved

/-- The retries end, or the answers do. -/
def Ends (maxRetryCount : UInt32) (buffer : List Json) (answers : Nat → Except FlushError Unit) : Prop :=
  maxRetryCount.toNat < 2 ^ 32 - 1 ∨ remaining buffer answers (2 ^ 32) = []

/-- At every moment: in front of a call, or back after so many. -/
theorem after_cases (hends : Ends maxRetryCount buffer answers) (n : Nat) :
    (n ≤ maxRetryCount.toNat ∧ remaining buffer answers n ≠ [] ∧
      Calling buffer answers n (after maxRetryCount buffer answers n)) ∨
    ∃ m ≤ maxRetryCount.toNat + 1, Returned buffer answers m (after maxRetryCount buffer answers n) ∧
      (remaining buffer answers m = [] ∨ m = maxRetryCount.toNat + 1) := by
  have hlt := maxRetryCount.toNat_lt
  induction n with
  | zero =>
    by_cases hbuffer : buffer = []
    · right
      refine ⟨0, Nat.zero_le _, ?_, Or.inl hbuffer⟩
      show Returned buffer answers 0 (start buffer)
      unfold start
      rw [if_pos hbuffer, hbuffer]
      exact ⟨rfl, rfl, rfl⟩
    · left
      exact ⟨Nat.zero_le _, hbuffer, after_calling hbuffer (Or.inl (Nat.zero_le _))⟩
  | succ n ih =>
    rcases ih with ⟨hn, hremains, hcalling⟩ | ⟨m, hm, hreturned, hlast⟩
    · by_cases hnil : remaining buffer answers (n + 1) = []
      · right
        exact ⟨n + 1, by omega, after_returned hcalling (Or.inl hnil), Or.inl hnil⟩
      · by_cases hmore : n + 1 ≤ maxRetryCount.toNat
        · left
          exact ⟨hmore, hnil, after_calling hnil (Or.inl hmore)⟩
        · right
          by_cases hmax : maxRetryCount.toNat < 2 ^ 32 - 1
          · refine ⟨n + 1, by omega, after_returned hcalling (Or.inr ?_), Or.inr (by omega)⟩
            rw [failures_exceed hn hmax]
            omega
          · -- the counter never exceeds the largest count, but this answer left nothing
            have hfull : n + 1 = 2 ^ 32 := by omega
            exact absurd (hfull ▸ hends.resolve_left hmax) hnil
    · right
      refine ⟨m, hm, ?_, hlast⟩
      have hstep : after maxRetryCount buffer answers (n + 1) = after maxRetryCount buffer answers n := by
        show (after maxRetryCount buffer answers n).step maxRetryCount (answers n) = _
        unfold step
        rw [hreturned.state]
      rw [hstep]
      exact hreturned

/-- The calls were given what remained. -/
theorem calls_eq (hends : Ends maxRetryCount buffer answers) (n : Nat) :
    ∃ m ≤ maxRetryCount.toNat + 1,
      (after maxRetryCount buffer answers n).calls = (List.range m).map (remaining buffer answers) := by
  rcases after_cases hends n with ⟨hn, -, hcalling⟩ | ⟨m, hm, hreturned, -⟩
  · exact ⟨n + 1, by omega, hcalling.calls⟩
  · exact ⟨m, hm, hreturned.calls⟩

/-- Without an end, there is a call too many. -/
theorem call_too_many (hends : ¬ Ends maxRetryCount buffer answers) :
    (after maxRetryCount buffer answers (2 ^ 32)).calls.length = maxRetryCount.toNat + 2 := by
  obtain ⟨hmax, hremains⟩ := not_or.mp hends
  have hlt := maxRetryCount.toNat_lt
  have hlast : maxRetryCount.toNat = 2 ^ 32 - 1 := by omega
  have hcalling := after_calling hremains (Or.inr hlast)
  rw [hcalling.calls, List.length_map, List.length_range]
  omega

/-- **The retries.**  One flush keeps its promises for exactly those counts and answers that end it: a
    count below the largest one, or answers that leave nothing in time. -/
theorem flushes_iff (maxRetryCount : UInt32) (buffer : List Json)
    (answers : Nat → Except FlushError Unit) :
    Flushes maxRetryCount buffer answers ↔ Ends maxRetryCount buffer answers := by
  constructor
  · intro h
    by_contra hends
    have hmost := h.atMost (2 ^ 32)
    rw [call_too_many hends] at hmost
    omega
  · intro hends
    have hcall : ∀ n i call, (after maxRetryCount buffer answers n).calls[i]? = some call →
        call = remaining buffer answers i := by
      intro n i call hi
      obtain ⟨m, -, hcalls⟩ := calls_eq hends n
      rw [hcalls, List.getElem?_map] at hi
      obtain ⟨i', hi', rfl⟩ := Option.map_eq_some_iff.mp hi
      obtain ⟨hlt, heq⟩ := List.getElem?_eq_some_iff.mp hi'
      rw [List.getElem_range] at heq
      rw [heq]
    refine ⟨fun n => ?_, fun n i call next hi hnext => ?_,
      fun n i j call later err firstFail hij hi hj herr hfail => ?_, ?_, fun n dropped hstate => ?_⟩
    · obtain ⟨m, hm, hcalls⟩ := calls_eq hends n
      rw [hcalls, List.length_map, List.length_range]
      exact hm
    · rw [hcall n i call hi, hcall n (i + 1) next hnext]
      obtain ⟨skipped, hskipped⟩ := remaining_drop (Nat.le_succ i)
      rw [hskipped]
      exact List.drop_suffix _ _
    · rw [hcall n i call hi, hcall n j later hj]
      obtain ⟨skipped, hskipped⟩ := remaining_drop hij
      refine ⟨firstFail + skipped, ?_, ?_⟩
      · exact Nat.le_trans (Nat.min_le_left _ _) (Nat.le_add_right _ _)
      · rw [hskipped, show remaining buffer answers (i + 1) =
            remainingOf (remaining buffer answers i) (answers i) from rfl, herr]
        show ((remaining buffer answers i).drop (err.firstFail.getD 0)).drop skipped = _
        rw [hfail, List.drop_drop]
        rfl
    · rcases after_cases hends (maxRetryCount.toNat + 1) with ⟨hn, -, -⟩ | ⟨m, -, hreturned, -⟩
      · omega
      · exact ⟨_, _, hreturned.state⟩
    · rcases after_cases hends n with ⟨-, -, hcalling⟩ | ⟨m, -, hreturned, hlast⟩
      · rw [hcalling.state] at hstate
        cases hstate
      · rw [hreturned.state] at hstate
        obtain rfl := FlushState.returned.inj hstate
        refine ⟨hreturned.conserved, fun hne => ?_⟩
        rw [hreturned.calls, List.length_map, List.length_range]
        exact hlast.resolve_left hne

/-- The largest count, and a flusher that always fails. -/
theorem flushes_without_end :
    ¬ Flushes 0xFFFFFFFF [.null] (fun _ => .error { message := "down", firstFail := none }) := by
  have hremaining : ∀ n, remaining [.null] (fun _ => .error { message := "down", firstFail := none }) n =
      [.null] := by
    intro n
    induction n with
    | zero => rfl
    | succ n ih =>
      show remainingOf (remaining _ _ n) _ = _
      rw [ih]
      rfl
  intro h
  have hmost := h.atMost (2 ^ 32)
  rw [call_too_many (not_or.mpr ⟨by decide, by rw [hremaining]; exact List.cons_ne_nil _ _⟩)] at hmost
  omega

end Loop

end FlushRun

end Featherbit
