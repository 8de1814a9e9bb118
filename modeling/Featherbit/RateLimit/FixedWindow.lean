/-
  WHAT THE LIMIT OF A FIXED WINDOW PROMISES, over any sequence of requests on one key.

  The windows are not given in advance: the first request opens one, and the first request at or
  after its end opens the next.  A run (`counted`) is therefore cut into windows by the requests
  that open one, and the limit is a bound on every piece (`FixedWindowLaw`).  Two windows start at
  least one window length apart, so an interval of that length meets at most two of them.
-/
import Featherbit.RateLimit.CounterStore

namespace Featherbit

/-- One request of a run on a key, with the key's entry around it. -/
structure Counted where
  now : Nat
  before : Option WindowEntry
  result : WindowResult
  after : Option WindowEntry

/-- Requests on one key at these times. -/
def LocalCounterStore.counted (key : String) (limit window : Nat) :
    LocalCounterStore → List Nat → List Counted
  | _, [] => []
  | windows, now :: times =>
    let (result, windows') := windows.incrFixedWindow now key limit window
    ⟨now, windows[key]?, result, windows'[key]?⟩ :: counted key limit window windows' times

/-- The same run on the entry of the key alone. -/
def countedFrom (limit window : Nat) : Option WindowEntry → List Nat → List Counted
  | _, [] => []
  | entry, now :: times =>
    let (result, after) := countRequest limit window now entry
    ⟨now, entry, result, some after⟩ :: countedFrom limit window (some after) times

theorem counted_eq (key : String) (limit window : Nat) (windows : LocalCounterStore)
    (times : List Nat) :
    windows.counted key limit window times = countedFrom limit window windows[key]? times := by
  induction times generalizing windows with
  | nil => rfl
  | cons now times ih =>
    simp only [LocalCounterStore.counted, countedFrom, LocalCounterStore.incrFixedWindow, ih,
      Std.ExtTreeMap.getElem?_insert_self]

/-- The request opened a window. -/
def Counted.opened (window : Nat) (e : Counted) : Bool := opensWindow window e.now e.before

def allowedIn (run : List Counted) : Nat := run.countP fun e => e.result.allowed

/-- A window, as far as it has come: the request that opened it, and others that did not. -/
def IsWindow (window : Nat) (seg : List Counted) : Prop :=
  ∃ opener rest, seg = opener :: rest ∧ opener.opened window = true ∧
    ∀ e ∈ rest, e.opened window = false

/-- What a run of requests on one key keeps to. -/
structure FixedWindowLaw (limit window : Nat) (run : List Counted) : Prop where
  /-- at most `limit` requests are allowed in a window -/
  bound : ∀ pre seg post, run = pre ++ (seg ++ post) → IsWindow window seg → allowedIn seg ≤ limit
  /-- every request belongs to a window -/
  windows : ∀ pre e post, run = pre ++ e :: post →
    ∃ before seg, pre ++ [e] = before ++ seg ∧ IsWindow window seg
  /-- at most twice as many in any interval of one window length -/
  interval : ∀ t, (run.countP fun e => e.result.allowed && decide (t ≤ e.now ∧ e.now < t + window)) ≤
    2 * limit
  /-- also when both ends count, unless the windows have no length -/
  closedInterval : 0 < window → ∀ t,
    (run.countP fun e => e.result.allowed && decide (t ≤ e.now ∧ e.now ≤ t + window)) ≤ 2 * limit
  /-- what is reported as remaining is what the window has left -/
  remaining : ∀ pre seg e post, run = pre ++ (seg ++ [e]) ++ post → IsWindow window (seg ++ [e]) →
    e.result.remaining + allowedIn (seg ++ [e]) = limit
  /-- a request that opens no window leaves the start of the open one, and with it its end -/
  start : ∀ e ∈ run, e.opened window = false → ∃ start count count',
    e.before = some (start, count) ∧ e.after = some (start, count')
  /-- a rejected one leaves the whole entry -/
  rejected : ∀ e ∈ run, e.result.allowed = false → e.opened window = false → e.after = e.before
  /-- a request opens a window exactly when none is open at its time -/
  boundary : ∀ e ∈ run, ∀ start count, e.before = some (start, count) →
    (e.opened window = true ↔ start + window ≤ e.now)
  /-- it opens it at its own time, and is allowed -/
  fresh : ∀ e ∈ run, e.opened window = true →
    (∃ count, e.after = some (e.now, count)) ∧ (1 ≤ limit → e.result.allowed = true)

/-! ## The entry a run meets -/

/-- The entry is one of these limit and window, and the requests to come are later than it and in
    order. -/
structure Ready (limit : Nat) (entry : Option WindowEntry) (times : List Nat) : Prop where
  sorted : times.Pairwise (· ≤ ·)
  count_le : ∀ start count, entry = some (start, count) → count ≤ limit
  start_le : ∀ start count, entry = some (start, count) → ∀ t ∈ times, start ≤ t

/-- The count after one more request. -/
def tally (limit count : Nat) : Nat := count + if count < limit then 1 else 0

theorem tally_le {limit count : Nat} (h : count ≤ limit) : tally limit count ≤ limit := by
  unfold tally
  split <;> omega

section Step

variable {limit window now : Nat} {entry : Option WindowEntry} {times : List Nat}

/-- The window the next request is counted in. -/
theorem Ready.current (h : Ready limit entry (now :: times)) (window : Nat) : ∃ start count,
    currentWindow now window entry = (start, count) ∧ start ≤ now ∧ count ≤ limit ∧
    (opensWindow window now entry = true → start = now ∧ count = 0) ∧
    (opensWindow window now entry = false → entry = some (start, count) ∧ now < start + window) := by
  cases hopen : opensWindow window now entry with
  | true => exact ⟨now, 0, currentWindow_of_opens hopen, by omega, by omega, by simp, nofun⟩
  | false =>
    cases entry with
    | none => nomatch hopen
    | some e =>
      obtain ⟨start, count⟩ := e
      have hle := h.start_le start count rfl now List.mem_cons_self
      have hin : ¬ now - start ≥ window := of_decide_eq_false hopen
      exact ⟨start, count, currentWindow_of_open hopen, hle, h.count_le start count rfl, nofun,
        fun _ => ⟨rfl, by omega⟩⟩

/-- One request, in the window it is counted in. -/
theorem countedFrom_cons (limit : Nat) (times : List Nat) {start count : Nat}
    (h : currentWindow now window entry = (start, count)) :
    ∃ e, countedFrom limit window entry (now :: times) =
        e :: countedFrom limit window (some (start, tally limit count)) times ∧
      e.now = now ∧ e.before = entry ∧ e.after = some (start, tally limit count) ∧
      e.result.allowed = decide (count < limit) ∧
      e.result.remaining = limit - tally limit count := by
  obtain ⟨hallowed, hremaining, hafter⟩ := countRequest_of_current limit h
  refine ⟨⟨now, entry, (countRequest limit window now entry).1,
    some (countRequest limit window now entry).2⟩, ?_, rfl, rfl, ?_, hallowed, hremaining⟩
  · rw [countedFrom]
    dsimp only
    rw [hafter]
    rfl
  · dsimp only
    rw [hafter]
    rfl

theorem Ready.step {start count : Nat} (h : Ready limit entry (now :: times)) (hs : start ≤ now)
    (hc : count ≤ limit) : Ready limit (some (start, tally limit count)) times := by
  have hsorted := List.pairwise_cons.mp h.sorted
  refine ⟨hsorted.2, ?_, ?_⟩
  · rintro _ _ ⟨⟩
    exact tally_le hc
  · rintro _ _ ⟨⟩ t ht
    exact hs.trans (hsorted.1 t ht)

/-- What comes after any part of a run is a run. -/
theorem countedFrom_split {pre rest : List Counted} (h : Ready limit entry times)
    (heq : countedFrom limit window entry times = pre ++ rest) :
    ∃ entry' times', Ready limit entry' times' ∧
      rest = countedFrom limit window entry' times' := by
  induction pre generalizing entry times with
  | nil => exact ⟨entry, times, h, heq.symm⟩
  | cons e pre ih =>
    cases times with
    | nil => nomatch heq
    | cons now times =>
      obtain ⟨start, count, hcurrent, hs, hc, -, -⟩ := h.current window
      obtain ⟨e', hcons, -⟩ := countedFrom_cons limit times hcurrent
      rw [hcons] at heq
      obtain ⟨-, heq⟩ := List.cons.inj heq
      exact ih (h.step hs hc) heq

end Step

/-! ## Inside a window -/

section Window

variable {limit window start count : Nat} {times : List Nat}

theorem allowedIn_cons (e : Counted) (run : List Counted) :
    allowedIn (e :: run) = allowedIn run + if e.result.allowed = true then 1 else 0 :=
  List.countP_cons

/-- A request of the open window counts up to `tally`. -/
theorem tally_eq (limit count : Nat) :
    tally limit count = count + if decide (count < limit) = true then 1 else 0 := by
  simp [tally]

/-- Requests that open no window: the count goes on from where it stood. -/
theorem countedFrom_open {seg post : List Counted} (h : Ready limit (some (start, count)) times)
    (heq : countedFrom limit window (some (start, count)) times = seg ++ post)
    (hopen : ∀ e ∈ seg, e.opened window = false) :
    count + allowedIn seg ≤ limit ∧
    ∀ front e, seg = front ++ [e] → e.result.remaining + (count + allowedIn seg) = limit := by
  induction seg generalizing count times with
  | nil =>
    refine ⟨h.count_le start count rfl, fun front e hnil => ?_⟩
    exact absurd hnil.symm (by simp)
  | cons e seg ih =>
    cases times with
    | nil => nomatch heq
    | cons now times =>
      obtain ⟨s, c, hcurrent, hs, hc, -, hin⟩ := h.current window
      obtain ⟨e', hcons, hnow, hbefore, -, hallowed, hremaining⟩ :=
        countedFrom_cons limit times hcurrent
      rw [hcons] at heq
      obtain ⟨rfl, htail⟩ := List.cons.inj heq
      have hclosed : opensWindow window now (some (start, count)) = false := by
        rw [← hnow, ← hbefore]
        exact hopen e' List.mem_cons_self
      obtain ⟨⟨⟩, -⟩ := hin hclosed
      obtain ⟨hle, hlast⟩ := ih (h.step hs hc) htail fun x hx => hopen x (List.mem_cons_of_mem e' hx)
      have hcount : count + allowedIn (e' :: seg) = tally limit count + allowedIn seg := by
        rw [allowedIn_cons, hallowed, tally_eq]
        omega
      rw [hcount]
      refine ⟨hle, fun front x hfront => ?_⟩
      cases front with
      | nil =>
        obtain ⟨rfl, rfl⟩ := List.cons.inj hfront
        have htally := tally_le hc
        rw [hremaining, show allowedIn [] = 0 from rfl]
        omega
      | cons y front =>
        obtain ⟨-, rfl⟩ := List.cons.inj hfront
        exact hlast front x rfl

/-- A window, from the request that opened it on. -/
theorem countedFrom_window {entry : Option WindowEntry} {seg post : List Counted}
    (h : Ready limit entry times) (heq : countedFrom limit window entry times = seg ++ post)
    (hseg : IsWindow window seg) :
    allowedIn seg ≤ limit ∧
    ∀ front e, seg = front ++ [e] → e.result.remaining + allowedIn seg = limit := by
  obtain ⟨opener, rest, rfl, hopener, hrest⟩ := hseg
  cases times with
  | nil => nomatch heq
  | cons now times =>
    obtain ⟨s, c, hcurrent, hs, hc, hfresh, -⟩ := h.current window
    obtain ⟨e', hcons, hnow, hbefore, -, hallowed, hremaining⟩ :=
      countedFrom_cons limit times hcurrent
    rw [hcons] at heq
    obtain ⟨rfl, htail⟩ := List.cons.inj heq
    have hopens : opensWindow window now entry = true := by
      rw [← hnow, ← hbefore]
      exact hopener
    obtain ⟨rfl, rfl⟩ := hfresh hopens
    obtain ⟨hle, hlast⟩ := countedFrom_open (h.step hs hc) htail hrest
    have hcount : allowedIn (e' :: rest) = tally limit 0 + allowedIn rest := by
      rw [allowedIn_cons, hallowed, tally_eq]
      omega
    rw [hcount]
    refine ⟨hle, fun front x hfront => ?_⟩
    cases front with
    | nil =>
      obtain ⟨rfl, rfl⟩ := List.cons.inj hfront
      have htally := tally_le hc
      rw [hremaining, show allowedIn [] = 0 from rfl]
      omega
    | cons y front =>
      obtain ⟨-, rfl⟩ := List.cons.inj hfront
      exact hlast front x rfl

end Window

/-! ## Over an interval -/

section Interval

variable {limit window start count bound : Nat} {entry : Option WindowEntry} {times : List Nat}

/-- The request is allowed, no later than `bound`. -/
def allowedUpTo (bound : Nat) (e : Counted) : Bool := e.result.allowed && decide (e.now ≤ bound)

theorem countP_cons_allowedUpTo (run : List Counted) {e : Counted}
    (hallowed : e.result.allowed = decide (count < limit)) (hin : e.now ≤ bound) :
    (e :: run).countP (allowedUpTo bound) + count =
      run.countP (allowedUpTo bound) + tally limit count := by
  have hhead : allowedUpTo bound e = decide (count < limit) := by
    rw [allowedUpTo, hallowed, decide_eq_true hin, Bool.and_true]
  rw [List.countP_cons, hhead, tally_eq]
  omega

/-- Requests after the bound do not count. -/
theorem countP_after (h : ∀ t ∈ times, bound < t) :
    (countedFrom limit window entry times).countP (allowedUpTo bound) = 0 := by
  induction times generalizing entry with
  | nil => rfl
  | cons now times ih =>
    have hnow : ¬ now ≤ bound := Nat.not_le.mpr (h now List.mem_cons_self)
    have hhead : ∀ e : Counted, e.now = now → allowedUpTo bound e = false := by
      rintro e rfl
      rw [allowedUpTo, decide_eq_false hnow, Bool.and_false]
    rw [countedFrom]
    dsimp only
    rw [List.countP_cons_of_neg (by rw [hhead _ rfl]; exact Bool.false_ne_true)]
    exact ih fun t ht => h t (List.mem_cons_of_mem now ht)

theorem Ready.after {now : Nat} (h : Ready limit entry (now :: times)) (hlate : bound < now) :
    ∀ t ∈ now :: times, bound < t := by
  rintro t (_ | ⟨_, ht⟩)
  · exact hlate
  · exact hlate.trans_le ((List.pairwise_cons.mp h.sorted).1 t ht)

/-- Up to a time inside the open window. -/
theorem countP_open_window (h : Ready limit (some (start, count)) times)
    (hbound : bound < start + window) :
    (countedFrom limit window (some (start, count)) times).countP (allowedUpTo bound) + count ≤
      limit := by
  induction times generalizing count with
  | nil => simpa [countedFrom] using h.count_le start count rfl
  | cons now times ih =>
    have hcount := h.count_le start count rfl
    by_cases hlate : bound < now
    · rw [countP_after (h.after hlate)]
      omega
    · obtain ⟨s, c, hcurrent, hs, hc, -, hin⟩ := h.current window
      have hstart := h.start_le start count rfl now List.mem_cons_self
      have hclosed : opensWindow window now (some (start, count)) = false :=
        decide_eq_false (by omega)
      obtain ⟨⟨⟩, -⟩ := hin hclosed
      obtain ⟨e, hcons, hnow, -, -, hallowed, -⟩ :=
        countedFrom_cons limit times hcurrent
      have hih := ih (h.step hs hc)
      rw [hcons, countP_cons_allowedUpTo _ hallowed (by omega)]
      exact hih

/-- Up to a time inside the window after the open one, whenever that is opened. -/
theorem countP_next_window (h : Ready limit (some (start, count)) times)
    (hbound : bound < start + 2 * window) :
    (countedFrom limit window (some (start, count)) times).countP (allowedUpTo bound) + count ≤
      2 * limit := by
  induction times generalizing count with
  | nil =>
    have hcount := h.count_le start count rfl
    simp only [countedFrom, List.countP_nil]
    omega
  | cons now times ih =>
    have hcount := h.count_le start count rfl
    by_cases hlate : bound < now
    · rw [countP_after (h.after hlate)]
      omega
    · obtain ⟨s, c, hcurrent, hs, hc, hfresh, hin⟩ := h.current window
      obtain ⟨e, hcons, hnow, -, -, hallowed, -⟩ :=
        countedFrom_cons limit times hcurrent
      cases hopen : opensWindow window now (some (start, count)) with
      | false =>
        obtain ⟨⟨⟩, -⟩ := hin hopen
        have hih := ih (h.step hs hc)
        rw [hcons, countP_cons_allowedUpTo _ hallowed (by omega)]
        exact hih
      | true =>
        obtain ⟨rfl, rfl⟩ := hfresh hopen
        have hend : s - start ≥ window := of_decide_eq_true hopen
        have hstart := h.start_le start count rfl s List.mem_cons_self
        -- one window for the rest of the interval
        have hrest := countP_open_window (h.step hs hc) (show bound < s + window by omega)
        have hhead := countP_cons_allowedUpTo (countedFrom limit window (some (s, tally limit 0)) times)
          hallowed (hnow.trans_le (Nat.not_lt.mp hlate))
        rw [hcons]
        omega

/-- At most two windows meet an interval of one window length, both ends included. -/
theorem countP_interval (h : Ready limit entry times) (hwindow : 0 < window) (t : Nat) :
    ((countedFrom limit window entry times).countP fun e =>
      e.result.allowed && decide (t ≤ e.now ∧ e.now ≤ t + window)) ≤ 2 * limit := by
  induction times generalizing entry with
  | nil => exact Nat.zero_le _
  | cons now times ih =>
    obtain ⟨s, c, hcurrent, hs, hc, hfresh, hin⟩ := h.current window
    obtain ⟨e, hcons, hnow, -, -, hallowed, -⟩ :=
      countedFrom_cons limit times hcurrent
    rw [hcons]
    by_cases hearly : now < t
    · rw [List.countP_cons_of_neg]
      · exact ih (h.step hs hc)
      · rw [decide_eq_false (by omega), Bool.and_false]
        exact Bool.false_ne_true
    · -- from the first request of the interval on, only the end of the interval matters
      have hopen : now < s + window := by
        cases hopen : opensWindow window now entry with
        | true =>
          obtain ⟨rfl, -⟩ := hfresh hopen
          omega
        | false => exact (hin hopen).2
      have hmono : ∀ run : List Counted,
          (run.countP fun e => e.result.allowed && decide (t ≤ e.now ∧ e.now ≤ t + window)) ≤
            run.countP (allowedUpTo (t + window)) := by
        refine fun run => List.countP_mono_left fun x _ hx => ?_
        simp only [Bool.and_eq_true, decide_eq_true_eq] at hx
        simp only [allowedUpTo, Bool.and_eq_true, decide_eq_true_eq]
        exact ⟨hx.1, hx.2.2⟩
      refine (hmono _).trans ?_
      · by_cases hlate : e.now ≤ t + window
        · -- the window of `e` and the next one cover the rest of the interval
          have hrest := countP_next_window (h.step hs hc) (show t + window < s + 2 * window by omega)
          have hhead := countP_cons_allowedUpTo
            (countedFrom limit window (some (s, tally limit c)) times) hallowed hlate
          omega
        · have hsorted := (List.pairwise_cons.mp h.sorted).1
          rw [List.countP_cons_of_neg, countP_after]
          · exact Nat.zero_le _
          · intro x hx
            have hle := hsorted x hx
            omega
          · rw [allowedUpTo, decide_eq_false hlate, Bool.and_false]
            exact Bool.false_ne_true

end Interval

/-! ## The law -/

/-- A list of requests ends in a window, unless none of them opened one. -/
theorem exists_window (window : Nat) (run : List Counted) :
    (∃ before seg, run = before ++ seg ∧ IsWindow window seg) ∨
      ∀ e ∈ run, e.opened window = false := by
  induction run using List.reverseRecOn with
  | nil => exact .inr nofun
  | append_singleton run e ih =>
    cases hopen : e.opened window with
    | true => exact .inl ⟨run, [e], rfl, e, [], rfl, hopen, nofun⟩
    | false =>
      rcases ih with ⟨before, seg, rfl, opener, rest, rfl, hopener, hrest⟩ | hnone
      · refine .inl ⟨before, opener :: rest ++ [e], by rw [List.append_assoc], opener, rest ++ [e], rfl,
          hopener, fun x hx => ?_⟩
        rcases List.mem_append.mp hx with hx | hx
        · exact hrest x hx
        · rwa [List.mem_singleton.mp hx]
      · refine .inr fun x hx => ?_
        rcases List.mem_append.mp hx with hx | hx
        · exact hnone x hx
        · rwa [List.mem_singleton.mp hx]

section Law

variable {limit window : Nat} {times : List Nat}

/-- A request of a run: the window it is counted in, and what becomes of it. -/
theorem mem_countedFrom {entry : Option WindowEntry} {e : Counted} (h : Ready limit entry times)
    (he : e ∈ countedFrom limit window entry times) :
    ∃ start count, start ≤ e.now ∧ count ≤ limit ∧
      (∀ s c, e.before = some (s, c) → s ≤ e.now) ∧
      (e.opened window = true → start = e.now ∧ count = 0) ∧
      (e.opened window = false → e.before = some (start, count) ∧ e.now < start + window) ∧
      e.after = some (start, tally limit count) ∧ e.result.allowed = decide (count < limit) := by
  obtain ⟨pre, post, heq⟩ := List.append_of_mem he
  obtain ⟨entry', times', h', heq'⟩ := countedFrom_split h heq
  cases times' with
  | nil => nomatch heq'
  | cons now times' =>
    obtain ⟨start, count, hcurrent, hs, hc, hfresh, hin⟩ := h'.current window
    obtain ⟨e', hcons, rfl, rfl, hafter, hallowed, -⟩ := countedFrom_cons limit times' hcurrent
    rw [hcons] at heq'
    obtain ⟨rfl, -⟩ := List.cons.inj heq'
    exact ⟨start, count, hs, hc, fun s c hb => h'.start_le s c hb _ List.mem_cons_self, hfresh, hin,
      hafter, hallowed⟩

theorem ready_of_sorted (h : times.Pairwise (· ≤ ·)) : Ready limit none times :=
  ⟨h, nofun, nofun⟩

/-- The first request of all finds no window. -/
theorem first_of_counted {pre post : List Counted} {e : Counted}
    (h : countedFrom limit window none times = pre ++ e :: post) :
    ∃ first rest, pre ++ [e] = first :: rest ∧ first.before = none := by
  cases times with
  | nil => exact absurd h.symm (by simp [countedFrom])
  | cons now times =>
    rw [countedFrom] at h
    cases pre with
    | nil =>
      obtain ⟨rfl, -⟩ := List.cons.inj h
      exact ⟨_, [], rfl, rfl⟩
    | cons first pre =>
      obtain ⟨rfl, -⟩ := List.cons.inj h
      exact ⟨_, pre ++ [e], rfl, rfl⟩

/-- **The fixed-window bound**, for every sequence of requests on one key at nondecreasing
    times. -/
theorem fixed_window_bound (key : String) (limit window : Nat) (h : times.Pairwise (· ≤ ·)) :
    FixedWindowLaw limit window (LocalCounterStore.counted key limit window ∅ times) := by
  have hready : Ready limit none times := ready_of_sorted h
  rw [counted_eq, Std.ExtTreeMap.getElem?_empty]
  constructor
  case bound =>
    intro pre seg post heq hseg
    obtain ⟨entry, later, hlater, hrest⟩ := countedFrom_split hready heq
    exact (countedFrom_window hlater hrest.symm hseg).1
  case windows =>
    intro pre e post heq
    rcases exists_window window (pre ++ [e]) with hwindow | hnone
    · exact hwindow
    · obtain ⟨first, rest, hsplit, hbefore⟩ := first_of_counted heq
      have hclosed := hnone first (hsplit ▸ List.mem_cons_self)
      rw [Counted.opened, hbefore] at hclosed
      nomatch hclosed
  case interval =>
    intro t
    by_cases hwindow : 0 < window
    · refine (List.countP_mono_left fun e _ he => ?_).trans (countP_interval hready hwindow t)
      simp only [Bool.and_eq_true, decide_eq_true_eq] at he ⊢
      exact ⟨he.1, he.2.1, by omega⟩
    · rw [List.countP_eq_zero.mpr]
      · exact Nat.zero_le _
      · intro e _ he
        simp only [Bool.and_eq_true, decide_eq_true_eq] at he
        omega
  case closedInterval => exact fun hwindow t => countP_interval hready hwindow t
  case remaining =>
    intro pre seg e post heq hseg
    rw [List.append_assoc] at heq
    obtain ⟨entry, later, hlater, hrest⟩ := countedFrom_split hready heq
    exact (countedFrom_window hlater hrest.symm hseg).2 seg e rfl
  case start =>
    intro e he hopen
    obtain ⟨start, count, -, -, -, -, hin, hafter, -⟩ := mem_countedFrom hready he
    exact ⟨start, count, tally limit count, (hin hopen).1, hafter⟩
  case rejected =>
    intro e he hreject hopen
    obtain ⟨start, count, -, -, -, -, hin, hafter, hallowed⟩ := mem_countedFrom hready he
    have hfull : ¬ count < limit := of_decide_eq_false (hallowed.symm.trans hreject)
    rw [hafter, (hin hopen).1, tally, if_neg hfull, Nat.add_zero]
  case boundary =>
    intro e he start count hbefore
    obtain ⟨-, -, -, -, hle, -⟩ := mem_countedFrom hready he
    have hstart := hle start count hbefore
    rw [Counted.opened, hbefore, opensWindow, decide_eq_true_eq]
    omega
  case fresh =>
    intro e he hopen
    obtain ⟨start, count, -, -, -, hfresh, -, hafter, hallowed⟩ := mem_countedFrom hready he
    obtain ⟨rfl, rfl⟩ := hfresh hopen
    exact ⟨⟨_, hafter⟩, fun hlimit => hallowed.trans (decide_eq_true hlimit)⟩

/-- Two requests a window, over its boundary. -/
theorem fixed_window_bound_two :
    FixedWindowLaw 2 10 (LocalCounterStore.counted "k" 2 10 ∅ [0, 9, 9, 10, 19, 20]) :=
  fixed_window_bound "k" 2 10 (by decide)

end Law

end Featherbit
