/-
  A COURIER THAT TRIES AGAIN, as a library.

  Items are accepted one by one and wait in line.  A courier takes a batch from the front, carries
  it, and learns how far it got: the items before that place are delivered, the rest is carried
  again, until an attempt leaves nothing or the attempts are used up and the rest is dropped.  One
  batch is under way at a time.

  Whatever the outcomes are (`inv_of_reaches`):

  * nothing is lost, doubled or overtaken: what was settled, what is under way and what waits are,
    one after the other, what was accepted;
  * every settled item was carried at least once and at most `maxAttempts` times, and a dropped one
    exactly that often.  How often is counted by an item's place in the order of acceptance, so
    equal items are told apart.

  What was sent is told apart the same way, for the two ways there are to send a batch:

  * item by item, each as some packets (`OnWire`): an attempt may break off within an item, which is
    then sent again from its first packet on.  Where an item is one packet, what was sent is what was
    delivered (`OnWire.eq_delivered`);
  * in one piece (`Pieces`): an attempt that fails may have sent it all the same, or a part of it.
-/
import Mathlib.Data.List.Basic
import Mathlib.Data.List.Count
import Mathlib.Logic.Relation

namespace Courier

/-- What becomes of an item. -/
inductive Fate where
  | delivered
  | dropped
deriving DecidableEq

/-- What is under way, and how often it was carried so far. -/
inductive Flight (α : Type) where
  | idle
  | carrying (batch : List α) (times : Nat)
  /-- before the next attempt -/
  | backingOff (batch : List α) (times : Nat)

namespace Flight

variable {α : Type}

def batch : Flight α → List α
  | .idle => []
  | .carrying batch _ | .backingOff batch _ => batch

def times : Flight α → Nat
  | .idle => 0
  | .carrying _ times | .backingOff _ times => times

end Flight

/-- One attempt: the items, and the place of the first of them in the order of acceptance. -/
structure Attempt (α : Type) where
  place : Nat
  items : List α

/-- The attempt carried the item at a place. -/
def Attempt.Covers {α : Type} (a : Attempt α) (i : Nat) : Prop :=
  a.place ≤ i ∧ i < a.place + a.items.length

instance {α : Type} (a : Attempt α) (i : Nat) : Decidable (a.Covers i) :=
  inferInstanceAs (Decidable (_ ∧ _))

structure State (α : Type) where
  accepted : List α
  waiting : List α
  flight : Flight α
  settled : List (Fate × α)
  attempts : List (Attempt α)

variable {α : Type}

/-- Nothing has come yet. -/
def start : State α where
  accepted := []
  waiting := []
  flight := .idle
  settled := []
  attempts := []

/-- How often the item at a place was carried. -/
def State.carried (s : State α) (i : Nat) : Nat := s.attempts.countP fun a => a.Covers i

/-- Items with one fate. -/
def fated (fate : Fate) (items : List α) : List (Fate × α) := items.map fun x => (fate, x)

@[simp] theorem map_snd_fated (fate : Fate) (items : List α) :
    (fated fate items).map Prod.snd = items := by
  simp [fated, Function.comp_def]

@[simp] theorem length_fated (fate : Fate) (items : List α) :
    (fated fate items).length = items.length := List.length_map _

/-- What can happen to a courier. -/
inductive Step (maxAttempts maxSize : Nat) : State α → State α → Prop where
  | accept {s : State α} (x : α) :
      Step maxAttempts maxSize s
        { s with accepted := s.accepted ++ [x], waiting := s.waiting ++ [x] }
  | depart {s : State α} {batch rest : List α} (hidle : s.flight = .idle)
      (hwaiting : s.waiting = batch ++ rest) (hne : batch ≠ []) (hsize : batch.length ≤ maxSize) :
      Step maxAttempts maxSize s
        { s with
          waiting := rest
          flight := .carrying batch 1
          attempts := s.attempts ++ [{ place := s.settled.length, items := batch }] }
  /-- the attempt leaves nothing, or was the last one -/
  | settle {s : State α} {done left : List α} {times : Nat}
      (hflight : s.flight = .carrying (done ++ left) times)
      (hlast : left = [] ∨ times = maxAttempts) :
      Step maxAttempts maxSize s
        { s with
          flight := .idle
          settled := s.settled ++ (fated .delivered done ++ fated .dropped left) }
  | fail {s : State α} {done left : List α} {times : Nat}
      (hflight : s.flight = .carrying (done ++ left) times) (hleft : left ≠ [])
      (hmore : times < maxAttempts) :
      Step maxAttempts maxSize s
        { s with
          flight := .backingOff left times
          settled := s.settled ++ fated .delivered done }
  | again {s : State α} {batch : List α} {times : Nat}
      (hflight : s.flight = .backingOff batch times) :
      Step maxAttempts maxSize s
        { s with
          flight := .carrying batch (times + 1)
          attempts := s.attempts ++ [{ place := s.settled.length, items := batch }] }

/-! ## What holds at every moment -/

/-- The books are in order. -/
structure Inv (maxAttempts maxSize : Nat) (s : State α) : Prop where
  conserved : s.settled.map Prod.snd ++ s.flight.batch ++ s.waiting = s.accepted
  nonempty : s.flight ≠ .idle → s.flight.batch ≠ [] ∧ 1 ≤ s.flight.times
  small : s.flight.batch.length ≤ maxSize
  few : s.flight.times ≤ maxAttempts ∧
    ∀ batch times, s.flight = .backingOff batch times → times < maxAttempts
  /-- an attempt carried some of the accepted items, all of them settled or under way -/
  attempted : ∀ a ∈ s.attempts, a.items ≠ [] ∧ a.items.length ≤ maxSize ∧
    a.place + a.items.length ≤ s.settled.length + s.flight.batch.length ∧
    a.items = (s.accepted.drop a.place).take a.items.length
  settled : ∀ i fate x, s.settled[i]? = some (fate, x) →
    1 ≤ s.carried i ∧ s.carried i ≤ maxAttempts ∧ (fate = .dropped → s.carried i = maxAttempts)
  underway : ∀ i, s.settled.length ≤ i → i < s.settled.length + s.flight.batch.length →
    s.carried i = s.flight.times

variable {maxAttempts maxSize : Nat} {s s' : State α}

theorem inv_start : Inv maxAttempts maxSize (start : State α) where
  conserved := rfl
  nonempty h := absurd rfl h
  small := Nat.zero_le _
  few := ⟨Nat.zero_le _, fun _ _ h => by cases h⟩
  attempted a ha := by cases ha
  settled i fate x h := by cases h
  underway i hge hlt := absurd hlt (Nat.not_lt.mpr hge)

/-- What is settled or under way was accepted. -/
theorem Inv.length_le (h : Inv maxAttempts maxSize s) :
    s.settled.length + s.flight.batch.length ≤ s.accepted.length := by
  rw [← h.conserved]
  simp only [List.length_append, List.length_map]
  omega

/-- What waits was never carried. -/
theorem Inv.carried_waiting (h : Inv maxAttempts maxSize s) {i : Nat}
    (hi : s.settled.length + s.flight.batch.length ≤ i) : s.carried i = 0 := by
  rw [State.carried, List.countP_eq_zero]
  intro a ha
  have hle := (h.attempted a ha).2.2.1
  rw [decide_eq_true_eq]
  rintro ⟨-, hlt⟩
  omega

/-- One more attempt. -/
theorem carried_append (s : State α) (a : Attempt α) (i : Nat) (flight : Flight α)
    (waiting : List α) :
    State.carried { s with waiting := waiting, flight := flight, attempts := s.attempts ++ [a] } i =
      s.carried i + if a.Covers i then 1 else 0 := by
  rw [State.carried, List.countP_append, List.countP_singleton]
  simp only [decide_eq_true_eq, State.carried]

/-- An attempt keeps its place among the accepted items when more are accepted. -/
theorem slice_append {accepted items : List α} {place : Nat} (x : α)
    (hle : place + items.length ≤ accepted.length)
    (h : items = (accepted.drop place).take items.length) :
    items = ((accepted ++ [x]).drop place).take items.length := by
  rw [List.drop_append_of_le_length (by omega),
    List.take_append_of_le_length (by rw [List.length_drop]; omega)]
  exact h

/-- What is carried next stands behind what is settled. -/
theorem slice_next {settled batch rest accepted : List α}
    (h : settled ++ batch ++ rest = accepted) :
    batch = (accepted.drop settled.length).take batch.length := by
  rw [← h, List.append_assoc, List.drop_left, List.take_left]

/-- A batch that is carried once more: the settled items are not touched, each of its own items
    counts one more time. -/
theorem Inv.carry (h : Inv maxAttempts maxSize s) {batch : List α} {times : Nat}
    (hne : batch ≠ []) (hsize : batch.length ≤ maxSize) (htimes : times + 1 ≤ maxAttempts)
    {waiting : List α} (hconserved : s.settled.map Prod.snd ++ batch ++ waiting = s.accepted)
    (hplaces : s.settled.length + s.flight.batch.length ≤ s.settled.length + batch.length)
    (hcarried : ∀ i, s.settled.length ≤ i → i < s.settled.length + batch.length →
      s.carried i = times) :
    Inv maxAttempts maxSize
      { s with
        waiting := waiting
        flight := .carrying batch (times + 1)
        attempts := s.attempts ++ [{ place := s.settled.length, items := batch }] } where
  conserved := hconserved
  nonempty _ := ⟨hne, Nat.le_add_left 1 times⟩
  small := hsize
  few := ⟨htimes, fun _ _ h => by cases h⟩
  attempted a ha := by
    rcases List.mem_append.mp ha with ha | ha
    · obtain ⟨hitems, hlength, hle, hslice⟩ := h.attempted a ha
      exact ⟨hitems, hlength, Nat.le_trans hle hplaces, hslice⟩
    · obtain rfl := List.mem_singleton.mp ha
      refine ⟨hne, hsize, Nat.le_refl _, ?_⟩
      have hslice := slice_next hconserved
      rw [List.length_map] at hslice
      exact hslice
  settled i fate x hi := by
    have hlt : i < s.settled.length := (List.getElem?_eq_some_iff.mp hi).1
    have hnot : ¬ Attempt.Covers { place := s.settled.length, items := batch } i :=
      fun hcovers => Nat.not_le.mpr hlt hcovers.1
    rw [carried_append, if_neg hnot]
    exact h.settled i fate x hi
  underway i hge hlt := by
    have hcovers : Attempt.Covers { place := s.settled.length, items := batch } i := ⟨hge, hlt⟩
    rw [carried_append, if_pos hcovers, hcarried i hge hlt]
    rfl

/-- What is under way was carried as often as its batch. -/
theorem Inv.carried_batch (h : Inv maxAttempts maxSize s) {batch : List α} {times : Nat}
    (hflight : s.flight = .carrying batch times) {i : Nat} (hge : s.settled.length ≤ i)
    (hlt : i < s.settled.length + batch.length) :
    s.carried i = times ∧ 1 ≤ times ∧ times ≤ maxAttempts := by
  have htimes := h.underway i hge (by rw [hflight]; exact hlt)
  have hone := (h.nonempty (by rw [hflight]; exact fun h => by cases h)).2
  have hfew := h.few.1
  rw [hflight] at htimes hone hfew
  exact ⟨htimes, hone, hfew⟩

/-- An outcome: the items in front are delivered. -/
theorem Inv.outcome (h : Inv maxAttempts maxSize s) {done left : List α} {times : Nat}
    (hflight : s.flight = .carrying (done ++ left) times) {i : Nat} {fate : Fate} {x : α}
    (hi : (s.settled ++ fated .delivered done)[i]? = some (fate, x)) :
    1 ≤ s.carried i ∧ s.carried i ≤ maxAttempts ∧ (fate = .dropped → s.carried i = maxAttempts) := by
  rcases Nat.lt_or_ge i s.settled.length with hlt | hge
  · rw [List.getElem?_append_left hlt] at hi
    exact h.settled i fate x hi
  · rw [List.getElem?_append_right hge, fated, List.getElem?_map] at hi
    obtain ⟨y, hy, heq⟩ := Option.map_eq_some_iff.mp hi
    obtain ⟨rfl, rfl⟩ := Prod.mk.inj heq
    have hin : i - s.settled.length < done.length := (List.getElem?_eq_some_iff.mp hy).1
    obtain ⟨hcarried, hone, hfew⟩ := h.carried_batch hflight hge (by
      rw [List.length_append]
      omega)
    rw [hcarried]
    exact ⟨hone, hfew, fun hdropped => by cases hdropped⟩

/-- **A step keeps the books.** -/
theorem inv_step (hpos : 0 < maxAttempts) (hstep : Step maxAttempts maxSize s s') (h : Inv maxAttempts maxSize s) :
    Inv maxAttempts maxSize s' := by
  cases hstep with
  | accept x =>
    refine ⟨?_, h.nonempty, h.small, h.few, fun a ha => ?_, h.settled, h.underway⟩
    · show s.settled.map Prod.snd ++ s.flight.batch ++ (s.waiting ++ [x]) = s.accepted ++ [x]
      rw [← List.append_assoc, h.conserved]
    · obtain ⟨hitems, hlength, hle, hslice⟩ := h.attempted a ha
      exact ⟨hitems, hlength, hle, slice_append x (Nat.le_trans hle h.length_le) hslice⟩
  | @depart batch rest hidle hwaiting hne hsize =>
    have hconserved := h.conserved
    rw [hidle, Flight.batch, List.append_nil, hwaiting, ← List.append_assoc] at hconserved
    have hplaces : s.settled.length + s.flight.batch.length ≤ s.settled.length + batch.length := by
      rw [hidle]
      exact Nat.le_add_right _ _
    refine h.carry hne hsize hpos hconserved hplaces fun i hge _ => h.carried_waiting ?_
    rw [hidle]
    exact hge
  | @settle done left times hflight hlast =>
    have hbatch : s.flight.batch = done ++ left := by rw [hflight]; rfl
    refine ⟨?_, fun h => absurd rfl h, Nat.zero_le _, ⟨Nat.zero_le _, fun _ _ h => by cases h⟩,
      fun a ha => ?_, fun i fate x hi => ?_, fun i hge hlt => absurd hlt (Nat.not_lt.mpr hge)⟩
    · have hconserved := h.conserved
      rw [hbatch] at hconserved
      simpa [Flight.batch] using hconserved
    · obtain ⟨hitems, hlength, hle, hslice⟩ := h.attempted a ha
      refine ⟨hitems, hlength, ?_, hslice⟩
      rw [hbatch, List.length_append] at hle
      show _ ≤ (s.settled ++ (fated .delivered done ++ fated .dropped left)).length + 0
      simp only [List.length_append, length_fated]
      omega
    · rw [← List.append_assoc] at hi
      rcases Nat.lt_or_ge i (s.settled ++ fated .delivered done).length with hlt | hge
      · rw [List.getElem?_append_left hlt] at hi
        exact h.outcome hflight hi
      · -- an item that is dropped: this was the last attempt
        rw [List.getElem?_append_right hge] at hi
        obtain ⟨hin, -⟩ := List.getElem?_eq_some_iff.mp hi
        rw [List.length_append, length_fated] at hge hin
        rw [length_fated] at hin
        have hleft : left ≠ [] := by
          rintro rfl
          exact absurd hin (Nat.not_lt_zero _)
        obtain ⟨hcarried, hone, hfew⟩ := h.carried_batch hflight (i := i) (by omega) (by
          rw [List.length_append]
          omega)
        show 1 ≤ s.carried i ∧ s.carried i ≤ maxAttempts ∧
          (fate = .dropped → s.carried i = maxAttempts)
        rw [hcarried]
        exact ⟨hone, hfew, fun _ => hlast.resolve_left hleft⟩
  | @fail done left times hflight hleft hmore =>
    have hbatch : s.flight.batch = done ++ left := by rw [hflight]; rfl
    have hone := (h.nonempty (by rw [hflight]; exact fun h => by cases h)).2
    rw [hflight] at hone
    have hplaces : (s.settled ++ fated .delivered done).length + left.length =
        s.settled.length + s.flight.batch.length := by
      rw [hbatch, List.length_append, List.length_append, length_fated]
      omega
    refine ⟨?_, fun _ => ⟨hleft, hone⟩, ?_, ⟨Nat.le_of_lt hmore, ?_⟩, fun a ha => ?_,
      fun i fate x hi => h.outcome hflight hi, fun i hge hlt => ?_⟩
    · have hconserved := h.conserved
      rw [hbatch] at hconserved
      simpa [Flight.batch] using hconserved
    · have hsmall := h.small
      rw [hbatch, List.length_append] at hsmall
      exact Nat.le_trans (Nat.le_add_left _ _) hsmall
    · intro batch times' hflight'
      obtain ⟨-, rfl⟩ := Flight.backingOff.inj hflight'
      exact hmore
    · obtain ⟨hitems, hlength, hle, hslice⟩ := h.attempted a ha
      exact ⟨hitems, hlength, Nat.le_trans hle (Nat.le_of_eq hplaces.symm), hslice⟩
    · have hlt' : i < (s.settled ++ fated .delivered done).length + left.length := hlt
      have hge' : (s.settled ++ fated .delivered done).length ≤ i := hge
      rw [List.length_append, length_fated] at hlt' hge'
      exact (h.carried_batch hflight (i := i) (by omega) (by
        rw [List.length_append]
        omega)).1
  | @again batch times hflight =>
    have hbatch : s.flight.batch = batch := by rw [hflight]; rfl
    have hconserved := h.conserved
    have hne := (h.nonempty (by rw [hflight]; exact fun h => by cases h)).1
    have hsmall := h.small
    rw [hbatch] at hconserved hne hsmall
    refine h.carry hne hsmall (h.few.2 batch times hflight) hconserved
      (Nat.le_of_eq (by rw [hbatch])) fun i hge hlt => ?_
    have hcarried := h.underway i hge (by rw [hbatch]; exact hlt)
    rw [hflight] at hcarried
    exact hcarried

theorem inv_of_reaches (hpos : 0 < maxAttempts) (h : Relation.ReflTransGen (Step maxAttempts maxSize) start s) :
    Inv maxAttempts maxSize s := by
  induction h with
  | refl => exact inv_start
  | tail _ hstep ih => exact inv_step hpos hstep ih

/-! ## What goes over the wire

  An item is sent as packets.  An attempt may break off within an item: some of its packets went
  out, and the next attempt begins with the first of them again. -/

section Wire

variable {α β : Type} (packets : α → List β) (maxAttempts : Nat)

/-- What an attempt sent of an item it broke off at: not all of its packets. -/
def BrokenOff (x : α) (part : List β) : Prop := part <+: packets x ∧ part ≠ packets x

/-- What an attempt sends: the packets of the items that are done, and some of the next one's. -/
def Transmits (done left : List α) (sent : List β) : Prop :=
  ∃ part, sent = done.flatMap packets ++ part ∧
    ∀ x, left.head? = some x → BrokenOff packets x part

/-- A settled item, with what was sent of it by the attempts that broke off at it. -/
structure Posting (α β : Type) where
  fate : Fate
  item : α
  brokenOff : List (List β)

/-- What was sent of the item, in order. -/
def Posting.sent (p : Posting α β) : List β :=
  p.brokenOff.flatten ++ if p.fate = .delivered then packets p.item else []

/-- The attempts the item took are at most as many as there may be. -/
structure Posting.Fair (p : Posting α β) : Prop where
  brokenOff : ∀ part ∈ p.brokenOff, BrokenOff packets p.item part
  few : p.brokenOff.length + (if p.fate = .delivered then 1 else 0) ≤ maxAttempts

/-- What was sent of the settled items, one after the other. -/
def Posted (settled : List (Fate × α)) (wire : List β) : Prop :=
  ∃ postings : List (Posting α β), postings.map (fun p => (p.fate, p.item)) = settled ∧
    wire = postings.flatMap (·.sent packets) ∧ ∀ p ∈ postings, p.Fair packets maxAttempts

/-- The attempts on what is under way that are over. -/
def Flight.failed : Flight α → Nat
  | .idle => 0
  | .carrying _ times => times - 1
  | .backingOff _ times => times

/-- What is on the wire: what was sent of the settled items, and then of the first item that is under
    way, by the attempts that broke off at it. -/
def OnWire (settled : List (Fate × α)) (flight : Flight α) (wire : List β) : Prop :=
  ∃ (posted : List β) (brokenOff : List (List β)), Posted packets maxAttempts settled posted ∧ wire = posted ++ brokenOff.flatten ∧
    (∀ part ∈ brokenOff, ∃ x, flight.batch.head? = some x ∧ BrokenOff packets x part) ∧
    brokenOff.length ≤ flight.failed

variable {packets maxAttempts} {settled settled' : List (Fate × α)} {wire wire' sent : List β}
  {done left batch : List α} {times : Nat}

theorem posted_nil : Posted packets maxAttempts [] [] := ⟨[], rfl, rfl, fun p hp => by cases hp⟩

theorem Posted.append (h : Posted packets maxAttempts settled wire)
    (h' : Posted packets maxAttempts settled' wire') :
    Posted packets maxAttempts (settled ++ settled') (wire ++ wire') := by
  obtain ⟨postings, rfl, rfl, hfair⟩ := h
  obtain ⟨postings', rfl, rfl, hfair'⟩ := h'
  refine ⟨postings ++ postings', List.map_append, List.flatMap_append.symm, fun p hp => ?_⟩
  rcases List.mem_append.mp hp with hp | hp
  · exact hfair p hp
  · exact hfair' p hp

theorem posted_singleton {p : Posting α β} (h : p.Fair packets maxAttempts) :
    Posted packets maxAttempts [(p.fate, p.item)] (p.sent packets) := by
  refine ⟨[p], rfl, by rw [List.flatMap_singleton], fun q hq => ?_⟩
  obtain rfl := List.mem_singleton.mp hq
  exact h

/-- An item that went out at its last attempt. -/
theorem posted_delivered {x : α} {brokenOff : List (List β)}
    (h : ∀ part ∈ brokenOff, BrokenOff packets x part) (hfew : brokenOff.length < maxAttempts) :
    Posted packets maxAttempts [(.delivered, x)] (brokenOff.flatten ++ packets x) := by
  have hfair : Posting.Fair packets maxAttempts { fate := .delivered, item := x, brokenOff := brokenOff } :=
    ⟨h, hfew⟩
  exact posted_singleton hfair

/-- An item that never went out whole. -/
theorem posted_dropped {x : α} {brokenOff : List (List β)}
    (h : ∀ part ∈ brokenOff, BrokenOff packets x part) (hfew : brokenOff.length ≤ maxAttempts) :
    Posted packets maxAttempts [(.dropped, x)] brokenOff.flatten := by
  have hfair : Posting.Fair packets maxAttempts { fate := .dropped, item := x, brokenOff := brokenOff } :=
    ⟨h, hfew⟩
  have hposted := posted_singleton hfair
  rwa [Posting.sent, if_neg (fun h => by cases h), List.append_nil] at hposted

/-- Items that went out at the first attempt. -/
theorem posted_done (hpos : 0 < maxAttempts) (done : List α) :
    Posted packets maxAttempts (fated .delivered done) (done.flatMap packets) := by
  induction done with
  | nil => exact posted_nil
  | cons x done ih =>
    have hfirst : Posted packets maxAttempts [(.delivered, x)] ([].flatten ++ packets x) :=
      posted_delivered (fun part hpart => by cases hpart) hpos
    exact hfirst.append ih

/-- Items no attempt came to. -/
theorem posted_left (left : List α) : Posted packets maxAttempts (fated .dropped left) [] := by
  induction left with
  | nil => exact posted_nil
  | cons x left ih =>
    have hfirst : Posted packets maxAttempts [(.dropped, x)] [].flatten :=
      posted_dropped (fun part hpart => by cases hpart) (Nat.zero_le _)
    exact hfirst.append ih

/-! ### Each step puts on the wire what its attempt sends -/

theorem onWire_start : OnWire packets maxAttempts [] .idle [] :=
  ⟨[], [], posted_nil, rfl, (fun part hpart => by cases hpart), Nat.le_refl 0⟩

theorem OnWire.depart (h : OnWire packets maxAttempts settled .idle wire) (batch : List α) :
    OnWire packets maxAttempts settled (.carrying batch 1) wire := by
  obtain ⟨posted, brokenOff, hposted, hwire, -, hfew⟩ := h
  obtain rfl := List.length_eq_zero_iff.mp (Nat.le_zero.mp hfew)
  exact ⟨posted, [], hposted, hwire, (fun part hpart => by cases hpart), Nat.le_refl 0⟩

theorem OnWire.again (h : OnWire packets maxAttempts settled (.backingOff batch times) wire) :
    OnWire packets maxAttempts settled (.carrying batch (times + 1)) wire := h

/-- An attempt that leaves nothing. -/
theorem OnWire.whole (h : OnWire packets maxAttempts settled (.carrying batch times) wire)
    (hpos : 1 ≤ times) (hfew : times ≤ maxAttempts) :
    OnWire packets maxAttempts (settled ++ fated .delivered batch) .idle
      (wire ++ batch.flatMap packets) := by
  obtain ⟨posted, brokenOff, hposted, rfl, hbroken, hfailed⟩ := h
  have hlt : brokenOff.length < maxAttempts := by
    have hfailed' : brokenOff.length ≤ times - 1 := hfailed
    omega
  refine ⟨posted ++ (brokenOff.flatten ++ batch.flatMap packets), [], hposted.append ?_, by simp,
    (fun part hpart => by cases hpart), Nat.le_refl 0⟩
  cases batch with
  | nil =>
    -- there is no item an attempt could have broken off at
    have hnone : brokenOff = [] := by
      refine List.eq_nil_iff_forall_not_mem.mpr fun part hpart => ?_
      obtain ⟨x, hx, -⟩ := hbroken part hpart
      cases hx
    rw [hnone]
    exact posted_nil
  | cons x rest =>
    have hfirst : Posted packets maxAttempts [(.delivered, x)] (brokenOff.flatten ++ packets x) := by
      refine posted_delivered (fun part hpart => ?_) hlt
      obtain ⟨y, hy, hpart⟩ := hbroken part hpart
      obtain rfl := Option.some.inj hy
      exact hpart
    have hrest : Posted packets maxAttempts (fated .delivered rest) (rest.flatMap packets) :=
      posted_done (Nat.zero_lt_of_lt hlt) rest
    have hall := hfirst.append hrest
    rw [List.append_assoc] at hall
    exact hall

/-- An attempt that breaks off. -/
theorem OnWire.brokeOff (h : OnWire packets maxAttempts settled (.carrying (done ++ left) times) wire)
    (hpos : 1 ≤ times) (hfew : times ≤ maxAttempts) (hleft : left ≠ [])
    (hsent : Transmits packets done left sent) :
    OnWire packets maxAttempts (settled ++ fated .delivered done) (.backingOff left times)
      (wire ++ sent) := by
  obtain ⟨part, rfl, hpart⟩ := hsent
  obtain ⟨x, rest, rfl⟩ := List.exists_cons_of_ne_nil hleft
  have hbrokenPart : BrokenOff packets x part := hpart x rfl
  cases done with
  | nil =>
    -- it broke off at the same item as the ones before it
    obtain ⟨posted, brokenOff, hposted, rfl, hbroken, hfailed⟩ := h
    refine ⟨posted, brokenOff ++ [part], ?_, by simp, ?_, ?_⟩
    · rw [fated, List.map_nil, List.append_nil]
      exact hposted
    · intro part' hpart'
      rcases List.mem_append.mp hpart' with hpart' | hpart'
      · exact hbroken part' hpart'
      · obtain rfl := List.mem_singleton.mp hpart'
        exact ⟨x, rfl, hbrokenPart⟩
    · have hfailed' : brokenOff.length ≤ times - 1 := hfailed
      show (brokenOff ++ [part]).length ≤ times
      rw [List.length_append, List.length_singleton]
      omega
  | cons y done =>
    -- it went on to an item that no attempt had come to
    have hdone : OnWire packets maxAttempts settled (.carrying (y :: done) times) wire := by
      obtain ⟨posted, brokenOff, hposted, hwire, hbroken, hfailed⟩ := h
      exact ⟨posted, brokenOff, hposted, hwire, hbroken, hfailed⟩
    obtain ⟨posted, brokenOff, hposted, hwire, -, hnone⟩ := hdone.whole hpos hfew
    obtain rfl := List.length_eq_zero_iff.mp (Nat.le_zero.mp hnone)
    rw [List.flatten_nil, List.append_nil] at hwire
    refine ⟨posted, [part], hposted, ?_, ?_, hpos⟩
    · rw [← List.append_assoc, hwire]
      simp
    · intro part' hpart'
      obtain rfl := List.mem_singleton.mp hpart'
      exact ⟨x, rfl, hbrokenPart⟩

/-- What is under way is given up. -/
theorem OnWire.drop (h : OnWire packets maxAttempts settled (.backingOff batch times) wire)
    (hfew : times ≤ maxAttempts) :
    OnWire packets maxAttempts (settled ++ fated .dropped batch) .idle wire := by
  obtain ⟨posted, brokenOff, hposted, rfl, hbroken, hfailed⟩ := h
  refine ⟨posted ++ brokenOff.flatten, [], hposted.append ?_, by simp,
    (fun part hpart => by cases hpart), Nat.le_refl 0⟩
  cases batch with
  | nil =>
    have hnone : brokenOff = [] := by
      refine List.eq_nil_iff_forall_not_mem.mpr fun part hpart => ?_
      obtain ⟨x, hx, -⟩ := hbroken part hpart
      cases hx
    rw [hnone]
    exact posted_nil
  | cons x rest =>
    have hfirst : Posted packets maxAttempts [(.dropped, x)] brokenOff.flatten := by
      refine posted_dropped (fun part hpart => ?_) (Nat.le_trans hfailed hfew)
      obtain ⟨y, hy, hpart⟩ := hbroken part hpart
      obtain rfl := Option.some.inj hy
      exact hpart
    have hrest : Posted packets maxAttempts (fated .dropped rest) [] := posted_left rest
    have hall := hfirst.append hrest
    rw [List.append_nil] at hall
    exact hall

/-! ### What was delivered -/

def delivered (settled : List (Fate × α)) : List α :=
  settled.filterMap fun p => if p.1 = .delivered then some p.2 else none

theorem delivered_cons (fate : Fate) (x : α) (settled : List (Fate × α)) :
    delivered ((fate, x) :: settled) =
      if fate = .delivered then x :: delivered settled else delivered settled := by
  cases fate <;> rfl

theorem delivered_sublist (settled : List (Fate × α)) :
    (delivered settled).Sublist (settled.map Prod.snd) := by
  induction settled with
  | nil => exact List.Sublist.slnil
  | cons p settled ih =>
    obtain ⟨fate, x⟩ := p
    rw [delivered_cons, List.map_cons]
    split
    · exact ih.cons_cons x
    · exact ih.cons x

/-- All packets of a delivered item are sent. -/
theorem OnWire.sublist {flight : Flight α} (h : OnWire packets maxAttempts settled flight wire) :
    ((delivered settled).flatMap packets).Sublist wire := by
  obtain ⟨posted, brokenOff, ⟨postings, rfl, rfl, -⟩, rfl, -⟩ := h
  refine List.Sublist.trans ?_ (List.sublist_append_left _ _)
  induction postings with
  | nil => exact List.Sublist.slnil
  | cons p postings ih =>
    rw [List.map_cons, delivered_cons, List.flatMap_cons, Posting.sent]
    split
    · rw [List.flatMap_cons]
      exact (List.sublist_append_right _ _).append ih
    · exact ih.trans (List.sublist_append_right _ _)

/-- Nothing else is sent than packets of items that were carried. -/
theorem OnWire.mem_packets {flight : Flight α} {packet : β}
    (h : OnWire packets maxAttempts settled flight wire) (hpacket : packet ∈ wire) :
    ∃ x ∈ settled.map Prod.snd ++ flight.batch, packet ∈ packets x := by
  obtain ⟨posted, brokenOff, ⟨postings, rfl, rfl, hfair⟩, rfl, hbroken, -⟩ := h
  rcases List.mem_append.mp hpacket with hpacket | hpacket
  · obtain ⟨p, hp, hpacket⟩ := List.mem_flatMap.mp hpacket
    refine ⟨p.item, List.mem_append_left _ ?_, ?_⟩
    · rw [List.map_map]
      exact List.mem_map_of_mem (f := Prod.snd ∘ fun p : Posting α β => (p.fate, p.item)) hp
    · rcases List.mem_append.mp hpacket with hpacket | hpacket
      · obtain ⟨part, hpart, hpacket⟩ := List.mem_flatten.mp hpacket
        exact ((hfair p hp).brokenOff part hpart).1.subset hpacket
      · split at hpacket
        · exact hpacket
        · cases hpacket
  · obtain ⟨part, hpart, hpacket⟩ := List.mem_flatten.mp hpacket
    obtain ⟨x, hx, hpart⟩ := hbroken part hpart
    exact ⟨x, List.mem_append_right _ (List.mem_of_mem_head? hx), hpart.1.subset hpacket⟩

/-- **One packet an item: each delivered item is sent once**, in order, and no other is. -/
theorem OnWire.eq_delivered {packet : α → β} {flight : Flight α}
    (h : OnWire packets maxAttempts settled flight wire)
    (hone : ∀ x ∈ settled.map Prod.snd ++ flight.batch, packets x = [packet x]) :
    wire = (delivered settled).map packet := by
  have hnone : ∀ {x : α} {part : List β}, packets x = [packet x] → BrokenOff packets x part →
      part = [] := by
    rintro x part hx ⟨hpart, hne⟩
    rw [hx] at hpart hne
    rcases List.prefix_cons_iff.mp hpart with rfl | ⟨rest, rfl, hrest⟩
    · rfl
    · obtain rfl := List.prefix_nil.mp hrest
      exact absurd rfl hne
  have hflat : ∀ {brokenOff : List (List β)}, (∀ part ∈ brokenOff, part = []) → brokenOff.flatten = [] :=
    fun hall => List.flatten_eq_nil_iff.mpr hall
  obtain ⟨posted, brokenOff, ⟨postings, rfl, rfl, hfair⟩, rfl, hbroken, -⟩ := h
  have hflight : brokenOff.flatten = [] := by
    refine hflat fun part hpart => ?_
    obtain ⟨x, hx, hpart⟩ := hbroken part hpart
    exact hnone (hone x (List.mem_append_right _ (List.mem_of_mem_head? hx))) hpart
  rw [hflight, List.append_nil]
  have hpostings : ∀ p ∈ postings, packets p.item = [packet p.item] := by
    intro p hp
    refine hone _ (List.mem_append_left _ ?_)
    rw [List.map_map]
    exact List.mem_map_of_mem (f := Prod.snd ∘ fun p : Posting α β => (p.fate, p.item)) hp
  clear hone hbroken hflight
  induction postings with
  | nil => rfl
  | cons p postings ih =>
    have hp := hfair p List.mem_cons_self
    have hitem := hpostings p List.mem_cons_self
    have hrest := ih (fun q hq => hfair q (List.mem_cons_of_mem p hq))
      fun q hq => hpostings q (List.mem_cons_of_mem p hq)
    rw [List.flatMap_cons, hrest, Posting.sent,
      hflat fun part hpart => hnone hitem (hp.brokenOff part hpart), List.nil_append, List.map_cons,
      delivered_cons]
    split
    · rw [hitem, List.map_cons, List.singleton_append]
    · rfl

end Wire

/-! ## A batch in one piece

  The items of an attempt go out together.  An attempt that fails may have sent them all the same, or
  a part of them, or nothing. -/

section Pieces

variable {α β : Type} (whole : Nat → List α → β) (partOf : β → β → Prop)

/-- What was sent, with one place for each attempt that is over. -/
structure Pieces (attempts : List (Attempt α)) (settled : List (Fate × α)) (flight : Flight α)
    (posts : List (Option β)) : Prop where
  carried : ∀ batch times, flight = .carrying batch times →
    attempts.length = posts.length + 1 ∧
      attempts.getLast? = some { place := settled.length, items := batch }
  ended : (∀ batch times, flight ≠ .carrying batch times) → attempts.length = posts.length
  sent : ∀ k m, posts[k]? = some (some m) → ∃ a, attempts[k]? = some a ∧ partOf m (whole k a.items)
  arrived : ∀ i x, settled[i]? = some (.delivered, x) → ∃ k a, attempts[k]? = some a ∧ a.Covers i ∧
    posts[k]? = some (some (whole k a.items))

variable {whole partOf} {attempts : List (Attempt α)} {settled : List (Fate × α)} {flight flight' : Flight α}
  {posts : List (Option β)} {batch : List α} {times : Nat}

theorem getElem?_append_of_some {γ : Type} {l l' : List γ} {i : Nat} {x : γ} (h : l[i]? = some x) :
    (l ++ l')[i]? = some x := by
  rw [List.getElem?_append_left (List.getElem?_eq_some_iff.mp h).1]
  exact h

theorem pieces_start : Pieces whole partOf [] [] .idle [] where
  carried batch times h := by cases h
  ended _ := rfl
  sent k m h := by cases h
  arrived i x h := by cases h

theorem Pieces.length_le (h : Pieces whole partOf attempts settled flight posts) :
    posts.length ≤ attempts.length := by
  cases flight with
  | carrying batch times =>
    rw [(h.carried batch times rfl).1]
    exact Nat.le_succ _
  | idle | backingOff => exact Nat.le_of_eq (h.ended fun _ _ hcarrying => by cases hcarrying).symm

/-- An attempt begins. -/
theorem Pieces.carry (h : Pieces whole partOf attempts settled flight posts)
    (hover : ∀ batch times, flight ≠ .carrying batch times) (batch : List α) (times : Nat) :
    Pieces whole partOf (attempts ++ [{ place := settled.length, items := batch }]) settled
      (.carrying batch times) posts where
  carried batch' times' hflight := by
    obtain ⟨rfl, -⟩ := Flight.carrying.inj hflight
    exact ⟨by rw [List.length_append, h.ended hover, List.length_singleton], List.getLast?_concat⟩
  ended hnot := absurd rfl (hnot batch times)
  sent k m hk := by
    obtain ⟨a, ha, hpart⟩ := h.sent k m hk
    exact ⟨a, getElem?_append_of_some ha, hpart⟩
  arrived i x hi := by
    obtain ⟨k, a, ha, harrived⟩ := h.arrived i x hi
    exact ⟨k, a, getElem?_append_of_some ha, harrived⟩

/-- The attempt that is over is the last one. -/
theorem Pieces.last (h : Pieces whole partOf attempts settled (.carrying batch times) posts) :
    attempts[posts.length]? = some { place := settled.length, items := batch } := by
  obtain ⟨hlength, hlast⟩ := h.carried batch times rfl
  rw [List.getLast?_eq_getElem?, hlength] at hlast
  exact hlast

/-- What an attempt sent takes its place. -/
theorem Pieces.sent_append (h : Pieces whole partOf attempts settled (.carrying batch times) posts)
    {post : Option β} (hpost : ∀ m, post = some m → partOf m (whole posts.length batch)) :
    ∀ k m, (posts ++ [post])[k]? = some (some m) →
      ∃ a, attempts[k]? = some a ∧ partOf m (whole k a.items) := by
  intro k m hk
  rcases Nat.lt_or_ge k posts.length with hlt | hge
  · rw [List.getElem?_append_left hlt] at hk
    exact h.sent k m hk
  · rw [List.getElem?_append_right hge, List.getElem?_singleton] at hk
    split at hk
    · have hk' : k = posts.length := by omega
      subst hk'
      exact ⟨_, h.last, hpost m (Option.some.inj hk)⟩
    · cases hk

/-- The attempt did not get through. -/
theorem Pieces.fail (h : Pieces whole partOf attempts settled (.carrying batch times) posts)
    {post : Option β} (hpost : ∀ m, post = some m → partOf m (whole posts.length batch))
    (hflight : ∀ batch times, flight' ≠ .carrying batch times) :
    Pieces whole partOf attempts settled flight' (posts ++ [post]) where
  carried batch' times' heq := absurd heq (hflight batch' times')
  ended _ := by
    rw [(h.carried batch times rfl).1, List.length_append, List.length_singleton]
  sent := h.sent_append hpost
  arrived i x hi := by
    obtain ⟨k, a, ha, hcovers, hk⟩ := h.arrived i x hi
    exact ⟨k, a, ha, hcovers, getElem?_append_of_some hk⟩

/-- The attempt got through. -/
theorem Pieces.arrive (h : Pieces whole partOf attempts settled (.carrying batch times) posts)
    (hrefl : ∀ m, partOf m m) :
    Pieces whole partOf attempts (settled ++ fated .delivered batch) .idle
      (posts ++ [some (whole posts.length batch)]) where
  carried batch' times' heq := by cases heq
  ended _ := by
    rw [(h.carried batch times rfl).1, List.length_append, List.length_singleton]
  sent := h.sent_append fun m hm => by
    obtain rfl := Option.some.inj hm
    exact hrefl _
  arrived i x hi := by
    rcases Nat.lt_or_ge i settled.length with hlt | hge
    · rw [List.getElem?_append_left hlt] at hi
      obtain ⟨k, a, ha, hcovers, hk⟩ := h.arrived i x hi
      exact ⟨k, a, ha, hcovers, getElem?_append_of_some hk⟩
    · rw [List.getElem?_append_right hge] at hi
      have hin := (List.getElem?_eq_some_iff.mp hi).1
      rw [length_fated] at hin
      refine ⟨posts.length, _, h.last, ⟨hge, ?_⟩, List.getElem?_concat_length⟩
      show i < settled.length + batch.length
      omega

/-- What is given up never arrived. -/
theorem Pieces.drop (h : Pieces whole partOf attempts settled flight posts)
    (hover : ∀ batch times, flight ≠ .carrying batch times) (left : List α) :
    Pieces whole partOf attempts (settled ++ fated .dropped left) .idle posts where
  carried batch' times' heq := by cases heq
  ended _ := h.ended hover
  sent := h.sent
  arrived i x hi := by
    rcases Nat.lt_or_ge i settled.length with hlt | hge
    · rw [List.getElem?_append_left hlt] at hi
      exact h.arrived i x hi
    · rw [List.getElem?_append_right hge, fated, List.getElem?_map] at hi
      obtain ⟨y, -, heq⟩ := Option.map_eq_some_iff.mp hi
      cases heq

end Pieces

end Courier
