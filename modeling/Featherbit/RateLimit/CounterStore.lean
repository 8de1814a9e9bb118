/-
  FIXED-WINDOW COUNTERS (`ratelimit/mod.rs`).

  The in-memory store keeps `(window_start, count)` under a key.  A request at or after the end of
  its key's window starts a fresh one, so where the windows lie is decided by the requests
  themselves.  `counted` is a run of requests on one key; `fixed_window_bound` says what the
  limit means over such a run.

  A point in time is a number of nanoseconds, `duration_since` is the truncated difference.  A
  counter never passes its `u64` limit, so counts are natural numbers.
-/
import Featherbit.Lib.Cells
import Featherbit.Rust.Std

namespace Featherbit

/-- Outcome of counting one request against a fixed window. -/
structure WindowResult where
  /-- whether this request fits within the limit -/
  allowed : Bool
  /-- requests remaining in the current window -/
  remaining : Nat
  /-- time until the current window resets -/
  reset : Nat
  /-- the configured limit -/
  limit : Nat
deriving DecidableEq

/-- Counter backend failure. -/
structure CounterError where
  reason : String

/-- `trait CounterStore`, over the backend's state `σ`: the time, the key, the limit and the
    window. -/
structure CounterStore (σ : Type) where
  incrFixedWindow : σ → Nat → String → Nat → Nat → Except CounterError WindowResult × σ

/-- `(window_start, count)`. -/
abbrev WindowEntry := Nat × Nat

/-- In-memory counters, by key. -/
abbrev LocalCounterStore := HashMap WindowEntry

/-- The window a request at `now` is counted in: a fresh one if there is none, or if the last one
    has ended. -/
def currentWindow (now window : Nat) (entry : Option WindowEntry) : WindowEntry :=
  let (start, count) := entry.getD (now, 0)
  if now - start ≥ window then (now, 0) else (start, count)

/-- One request counted: what is reported, and the entry that is left. -/
def countRequest (limit window now : Nat) (entry : Option WindowEntry) :
    WindowResult × WindowEntry :=
  let (start, count) := currentWindow now window entry
  let allowed := decide (count < limit)
  let newCount := if allowed then count + 1 else count
  let elapsed := now - start
  ({ allowed := allowed, remaining := limit - newCount, reset := window - elapsed, limit := limit },
    (start, newCount))

/-- `LocalCounterStore::incr_fixed_window`. -/
def LocalCounterStore.incrFixedWindow (windows : LocalCounterStore) (now : Nat) (key : String)
    (limit window : Nat) : WindowResult × LocalCounterStore :=
  let (result, entry) := countRequest limit window now windows[key]?
  (result, windows.insert key entry)

/-- The local backend never fails. -/
def localCounterStore : CounterStore LocalCounterStore where
  incrFixedWindow windows now key limit window :=
    let (result, windows) := LocalCounterStore.incrFixedWindow windows now key limit window
    (.ok result, windows)

/-- `CounterStoreRegistry`: the backends by policy name. -/
structure CounterStoreRegistry (σ : Type) where
  stores : HashMap (CounterStore σ)

namespace CounterStoreRegistry

def default : CounterStoreRegistry LocalCounterStore where
  stores := (∅ : HashMap (CounterStore LocalCounterStore)).insert "local" localCounterStore

/-- The backend for a policy name. -/
def get {σ : Type} (registry : CounterStoreRegistry σ) (policy : String) :
    Except String (CounterStore σ) :=
  match registry.stores[policy]? with
  | some store => .ok store
  | none => .error ("unknown rate-limit policy '" ++ policy ++ "' — supported: " ++
      ", ".intercalate registry.stores.keys)

/-- There is one backend. -/
theorem get_default {policy : String} {store : CounterStore LocalCounterStore}
    (h : default.get policy = .ok store) : store = localCounterStore := by
  unfold get default at h
  dsimp only at h
  rw [Std.ExtTreeMap.getElem?_insert] at h
  split at h
  · rename_i hsome
    split at hsome
    · rw [← Except.ok.inj h, ← Option.some.inj hsome]
    · rw [Std.ExtTreeMap.getElem?_empty] at hsome
      nomatch hsome
  · nomatch h

end CounterStoreRegistry

/-! ## One request -/

section Request

variable {window now : Nat} {entry : Option WindowEntry} {start count : Nat}

/-- The request opens a window. -/
def opensWindow (window now : Nat) (entry : Option WindowEntry) : Bool :=
  match entry with
  | none => true
  | some (start, _) => decide (now - start ≥ window)

theorem currentWindow_of_opens (h : opensWindow window now entry = true) :
    currentWindow now window entry = (now, 0) := by
  unfold currentWindow
  cases entry with
  | none => simp
  | some e =>
    have hend : now - e.1 ≥ window := of_decide_eq_true h
    simp [hend]

theorem currentWindow_of_open (h : opensWindow window now (some (start, count)) = false) :
    currentWindow now window (some (start, count)) = (start, count) := by
  have hin : ¬ now - start ≥ window := of_decide_eq_false h
  simp [currentWindow, hin]

/-- What is counted in a window with `count` requests so far. -/
theorem countRequest_of_current (limit : Nat) (h : currentWindow now window entry = (start, count)) :
    (countRequest limit window now entry).1.allowed = decide (count < limit) ∧
    (countRequest limit window now entry).1.remaining =
      limit - (count + if count < limit then 1 else 0) ∧
    (countRequest limit window now entry).2 =
      (start, count + if count < limit then 1 else 0) := by
  unfold countRequest
  rw [h]
  by_cases hlt : count < limit
  · simp [hlt]
  · simp [hlt]

end Request

end Featherbit
