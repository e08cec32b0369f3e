import PacketLog.Queue

/-!
# Proofs — Fifo

A queue, told by what has happened to it: what it was offered and has accepted, what was taken out
of it, and when its permit was found.

* `Queue.follows_perform`: what one deed changes, told by the history.
* `Queue.follows_run`: what a queue holds after any history.
* `Queue.bounded_fifo`: a queue is bounded, first in first out, and has one permit, which stands for
  all that was accepted since it was last found.
-/

namespace PacketLog.Queue

variable {α : Type}

/-- What one may do with a queue. -/
inductive Action (α : Type) where
  | offer (a : α)
  | drain
  | drainUpTo (n : Nat)
  /-- Look for the permit. -/
  | poll

/-- What was done with a queue, and the answer. -/
inductive Deed (α : Type) where
  | offered (a : α) (accepted : Bool)
  | taken (items : List α)
  | polled (ready : Bool)

namespace Deed

/-- The item that enters the queue, if one does. -/
def accepted : Deed α → List α
  | offered a true => [a]
  | _              => []

/-- The items that leave the queue. -/
def removed : Deed α → List α
  | taken items => items
  | _           => []

/-- An item is refused. -/
def refuses : Deed α → Bool
  | offered _ false => true
  | _               => false

end Deed

/-- What was done with a queue, in order. -/
abbrev History (α : Type) := List (Deed α)

/-- An item has been accepted, and the permit has not been found since. -/
def Stirred (h : History α) : Prop :=
  ∃ before a after, h = before ++ .offered a true :: after ∧ .polled true ∉ after

/-- Do it, and see what happens. -/
def perform (q : Queue α) : Action α → Deed α × Queue α
  | .offer a     => (.offered a (q.offer a).1, (q.offer a).2)
  | .drain       => (.taken q.takeAll.1, q.takeAll.2)
  | .drainUpTo n => (.taken (q.take n).1, (q.take n).2)
  | .poll        => (.polled q.poll.1, q.poll.2)

/-- Do one thing after the other. -/
def run (q : Queue α) : List (Action α) → History α × Queue α
  | []          => ([], q)
  | act :: acts =>
    let (d, q) := q.perform act
    let (h, q) := q.run acts
    (d :: h, q)

/-! ### The permit -/

section Stirred

variable {h : History α}

theorem not_stirred_nil : ¬Stirred ([] : History α) := by
  rintro ⟨before, a, after, he, -⟩
  exact List.append_ne_nil_of_right_ne_nil _ (List.cons_ne_nil _ _) he.symm

theorem stirred_accepted (h : History α) (a : α) : Stirred (h ++ [.offered a true]) :=
  ⟨h, a, [], rfl, List.not_mem_nil⟩

/-- A deed by which nothing is accepted leaves a history stirred, unless the permit is found. -/
theorem stirred_snoc_iff {d : Deed α} (hd : d.accepted = []) :
    Stirred (h ++ [d]) ↔ Stirred h ∧ d ≠ .polled true := by
  constructor
  · rintro ⟨before, a, after, he, hn⟩
    rcases List.eq_nil_or_concat after with rfl | ⟨after, e, rfl⟩
    · obtain rfl := List.singleton_inj.1 (List.append_inj_right' he rfl)
      cases hd
    · have he : h ++ [d] = (before ++ .offered a true :: after) ++ [e] := by simpa using he
      obtain ⟨rfl, hl⟩ := List.append_inj' he rfl
      obtain rfl := List.singleton_inj.1 hl
      exact ⟨⟨before, a, after, rfl, fun hm => hn (by simp [hm])⟩,
        fun hp => hn (by simp [hp])⟩
  · rintro ⟨⟨before, a, after, rfl, hn⟩, hp⟩
    refine ⟨before, a, after ++ [d], by simp, fun hm => ?_⟩
    rcases List.mem_append.1 hm with hm | hm
    · exact hn hm
    · exact hp (List.mem_singleton.1 hm).symm

end Stirred

/-! ### Histories -/

/-- What a queue that was new holds after a history. -/
structure Follows (capacity : Nat) (h : History α) (q : Queue α) : Prop where
  capacity : q.capacity = max capacity 1
  bounded  : q.size ≤ q.capacity
  /-- What has left the queue and what is still in it is what it has accepted, in order. -/
  items    : h.flatMap (·.removed) ++ q.items = h.flatMap (·.accepted)
  refused  : q.refused = .ofNat (h.countP (·.refuses))
  permit   : q.permit = true ↔ Stirred h

variable {capacity : Nat} {h : History α} {q : Queue α}

theorem follows_new (capacity : Nat) : Follows capacity [] (new capacity : Queue α) where
  capacity := rfl
  bounded  := Nat.zero_le _
  items    := rfl
  refused  := rfl
  permit   := iff_of_false Bool.false_ne_true not_stirred_nil

/-- Nothing is lost by a deed: what leaves the queue, and what is in it then, is what was in it and
what enters it. -/
theorem Follows.next {d : Deed α} {q' : Queue α} (hq : Follows capacity h q)
    (hc : q'.capacity = q.capacity) (hb : q'.size ≤ q.capacity)
    (hi : d.removed ++ q'.items = q.items ++ d.accepted)
    (hr : q'.refused = q.refused + .ofNat (if d.refuses then 1 else 0))
    (hp : q'.permit = true ↔ Stirred (h ++ [d])) : Follows capacity (h ++ [d]) q' where
  capacity := hc.trans hq.capacity
  bounded  := hc ▸ hb
  items    := by
    calc (h ++ [d]).flatMap (·.removed) ++ q'.items
        = h.flatMap (·.removed) ++ (d.removed ++ q'.items) := by simp
      _ = h.flatMap (·.removed) ++ (q.items ++ d.accepted) := by rw [hi]
      _ = (h ++ [d]).flatMap (·.accepted) := by simp [← hq.items]
  refused  := by simp [hr, hq.refused, List.countP_singleton]
  permit   := hp

theorem follows_offer (hq : Follows capacity h q) (a : α) :
    Follows capacity (h ++ [.offered a (q.offer a).1]) (q.offer a).2 := by
  cases hf : q.isFull with
  | true =>
      rw [offer_of_full a hf]
      exact hq.next rfl hq.bounded (List.append_nil _).symm rfl
        (by simpa [stirred_snoc_iff (d := .offered a false) rfl] using hq.permit)
  | false =>
      have room : q.size < q.capacity := by
        rw [← Nat.not_le, ← isFull_iff, hf]
        exact Bool.false_ne_true
      rw [offer_of_room a hf]
      exact hq.next rfl (by simpa [size] using Nat.succ_le_of_lt room) rfl
        (UInt64.add_zero _).symm (iff_of_true rfl (stirred_accepted h a))

theorem follows_take (hq : Follows capacity h q) (n : Nat) :
    Follows capacity (h ++ [.taken (q.take n).1]) (q.take n).2 := by
  have hs : (q.take n).2.size ≤ q.size := by simp [size, take]
  refine hq.next rfl (Nat.le_trans hs hq.bounded) ?_ (UInt64.add_zero _).symm ?_
  · rw [Deed.removed, items_take]
    exact (List.append_nil _).symm
  · rw [stirred_snoc_iff rfl, permit_take, hq.permit]
    simp

/-- The permit is found if there is one, and then there is none. -/
theorem follows_poll (hq : Follows capacity h q) :
    Follows capacity (h ++ [.polled q.poll.1]) q.poll.2 := by
  refine hq.next rfl hq.bounded (List.append_nil _).symm (UInt64.add_zero _).symm ?_
  rw [stirred_snoc_iff rfl, ← hq.permit]
  simp [poll]

/-- **What one deed changes.** -/
theorem follows_perform (hq : Follows capacity h q) (act : Action α) :
    Follows capacity (h ++ [(q.perform act).1]) (q.perform act).2 := by
  cases act with
  | offer a => exact follows_offer hq a
  | drain =>
      rw [perform, takeAll_eq_take]
      exact follows_take hq q.size
  | drainUpTo n => exact follows_take hq n
  | poll => exact follows_poll hq

theorem follows_run (hq : Follows capacity h q) (acts : List (Action α)) :
    Follows capacity (h ++ (q.run acts).1) (q.run acts).2 := by
  induction acts generalizing h q with
  | nil => exact (List.append_nil h).symm ▸ hq
  | cons act acts ih =>
      have hr := ih (follows_perform hq act)
      rwa [List.append_assoc] at hr

/-! ### The law -/

/-- What a queue does next, told by its items and its history. -/
structure Serves (h : History α) (q : Queue α) : Prop where
  offer_iff : ∀ a, (q.offer a).1 = true ↔ q.size < q.capacity
  /-- What is accepted is put at the end, and leaves a permit. -/
  accepts   : ∀ a, (q.offer a).1 = true →
    (q.offer a).2 = { q with items := q.items ++ [a], permit := true }
  /-- By what is refused nothing changes but the number of refusals. -/
  refuses   : ∀ a, (q.offer a).1 = false → (q.offer a).2 = { q with refused := q.refused + 1 }
  takeAll   : q.takeAll = (q.items, { q with items := [] })
  take      : ∀ n, (q.take n).1 <+: q.items ∧ (q.take n).1.length = min n q.size ∧
    (q.take n).1 ++ (q.take n).2.items = q.items
  /-- The permit is there if something has been accepted since it was last found. -/
  poll_iff  : q.poll.1 = true ↔ Stirred h

theorem Follows.serves (hq : Follows capacity h q) : Serves h q where
  offer_iff a := by
    rw [← Nat.not_le, ← isFull_iff]
    cases hf : q.isFull with
    | true => simp [offer_of_full a hf]
    | false => simp [offer_of_room a hf]
  accepts a ha := by
    cases hf : q.isFull with
    | true => simp [offer_of_full a hf] at ha
    | false => rw [offer_of_room a hf]
  refuses a ha := by
    cases hf : q.isFull with
    | true => rw [offer_of_full a hf]
    | false => simp [offer_of_room a hf] at ha
  takeAll := rfl
  take n := ⟨List.take_prefix n q.items, List.length_take, items_take q n⟩
  poll_iff := hq.permit

/-- **A queue is bounded, first in first out, and has one permit.** -/
theorem bounded_fifo (capacity : Nat) (acts : List (Action α)) :
    let h := ((new capacity : Queue α).run acts).1
    let q := ((new capacity : Queue α).run acts).2
    Follows capacity h q ∧ Serves h q := by
  have hq := follows_run (follows_new (α := α) capacity) acts
  rw [List.nil_append] at hq
  exact ⟨hq, hq.serves⟩

end PacketLog.Queue
