import Mathlib.Algebra.Order.Field.Rat
import Mathlib.Order.Nat
import PacketLog.Retry

/-!
# Proofs — Attempts

A series of calls, told without the loop that makes them.  The last call is the first that
succeeds, fails for good, or is the last one allowed (`Retry.Ends`); every call before it is
followed by one wait (`Series.Goes`).

* `Retry.run_of_ends`, `Retry.run_of_not_ends`: what one call does.
* `Retry.exists_goes_of_isLeast`: so a whole series goes, if the schedule has a wait after each call
  but the last; `Retry.run_eq_none_of_isLeast`: else it breaks off.
* `Backoff.retry_law`: there is always such a last call, among the first 2³² - 1.
* `Backoff.retry_breaks_off`: a schedule that shrinks to times below zero breaks off the series.
-/

namespace PacketLog

/-! ### Outcomes -/

/-- The operation succeeds. -/
def Outcome.succeeds : Outcome → Bool
  | .replies .ok _ => true
  | _              => false

/-- The operation comes to an end and does not break down. -/
def Outcome.answers : Outcome → Bool
  | .replies .broke _ => false
  | .hangs            => false
  | _                 => true

theorem Outcome.exists_answer? {o : Outcome} (now : Nat) (h : o.answers = true) :
    ∃ time r, o.answer? now = some (time, r) ∧ r ≠ .broke := by
  cases o with
  | replies r delay =>
      refine ⟨now + delay, r, rfl, ?_⟩
      rintro rfl
      cases h
  | hangs => cases h

theorem Outcome.succeeds_of_answer? {o : Outcome} {now time : Nat} {r : Reply}
    (h : o.answer? now = some (time, r)) : o.succeeds = decide (r = .ok) := by
  cases o with
  | replies r' delay =>
      cases h
      cases r <;> rfl
  | hangs => cases h

/-- No answer is in the past. -/
theorem Outcome.le_of_answer? {o : Outcome} {now time : Nat} {r : Reply}
    (h : o.answer? now = some (time, r)) : now ≤ time := by
  cases o with
  | replies r' delay =>
      cases h
      exact Nat.le_add_right _ _
  | hangs => cases h

namespace Outcome

/-- The operation fails, and would again. -/
def failsForGood : Outcome → Bool
  | .replies (.failed e) _ => !e.isTransient
  | _                      => false

/-- The failure that the operation reports, if it fails. -/
def error? : Outcome → Option SinkError
  | .replies (.failed e) _ => some e
  | _                      => none

variable {o : Outcome} {now time : Nat} {e : SinkError}

theorem exists_of_answer?_failed (h : o.answer? now = some (time, .failed e)) :
    ∃ delay, o = .replies (.failed e) delay := by
  cases o with
  | replies reply delay =>
      cases h
      exact ⟨delay, rfl⟩
  | hangs => cases h

theorem error?_of_answer?_ok (h : o.answer? now = some (time, .ok)) : o.error? = none := by
  cases o with
  | replies reply delay =>
      cases h
      rfl
  | hangs => rfl

end Outcome

/-- A call at `now`, a wait, and the series after it. -/
def Retry.Series.again (s : Retry.Series) (now nanos : Nat) : Retry.Series :=
  { s with calls := now :: s.calls, waits := nanos :: s.waits }

/-- The calls are `k` and one more, the first at `now`.  A wait follows each of them but the last,
the one that `delay?` has there; when it is over the next call is made.  What the last call comes
to is what the series comes to. -/
structure Retry.Series.Goes (s : Retry.Series) (delay? : Nat → Option Nat) (outcome : Nat → Outcome)
    (now k : Nat) : Prop where
  calls   : s.calls.length = k + 1
  waits   : s.waits.length = k
  first   : s.calls[0]? = some now
  between : ∀ j < k, ∃ began ended reply nanos,
    s.calls[j]? = some began ∧ (outcome j).answer? began = some (ended, reply) ∧
      delay? j = some nanos ∧ s.waits[j]? = some nanos ∧
      s.calls[j + 1]? = some (Retry.wake ended nanos)
  last    : ∃ began reply, s.calls[k]? = some began ∧
    (outcome k).answer? began = some (s.finish, reply)
  result  : s.error? = (outcome k).error?

/-! ### One call -/

namespace Retry

variable {r : Retry} {outcome : Nat → Outcome} {now failed k : Nat} {series : Series}

theorem decide_eq_done_iff {reply : Reply} : r.decide failed reply = .done ↔ reply = .ok := by
  cases reply with
  | ok => simp [decide]
  | broke => simp [decide]
  | failed e =>
      simp only [decide, reduceCtorEq, iff_false]
      split
      · nofun
      · split <;> nofun

theorem ne_ok_of_decide {reply : Reply} {d : Decision} (h : r.decide failed reply = d)
    (hd : d ≠ .done) : reply ≠ .ok :=
  fun hr => hd (h ▸ decide_eq_done_iff.mpr hr)

theorem le_finish_of_run (h : r.run outcome now failed = some series) : now ≤ series.finish := by
  fun_induction run r outcome now failed generalizing series with
  | case1 => cases h
  | case2 now failed t reply ha hd =>
      cases h
      exact Outcome.le_of_answer? ha
  | case3 now failed t reply ha e hd =>
      cases h
      exact Outcome.le_of_answer? ha
  | case4 => cases h
  | case5 now failed t reply ha nanos hd ih =>
      obtain ⟨later, hl, rfl⟩ := Option.map_eq_some_iff.mp h
      calc now
          ≤ t := Outcome.le_of_answer? ha
        _ ≤ wake t nanos := Nat.le_add_right _ _
        _ ≤ later.finish := ih hl

/-- Call number `j`, counted from zero, is one after which there is no other. -/
def Ends (r : Retry) (outcome : Nat → Outcome) (j : Nat) : Prop :=
  (outcome j).succeeds = true ∨ (outcome j).failsForGood = true ∨ r.maxAttempts.toNat ≤ j + 1

instance : DecidablePred (r.Ends outcome) :=
  fun _ => inferInstanceAs (Decidable (_ ∨ _ ∨ _))

theorem ends_iff_of_failed {e : SinkError} {delay : Nat}
    (h : outcome failed = .replies (.failed e) delay) :
    r.Ends outcome failed ↔ (!e.isTransient || r.maxAttempts.toNat ≤ failed + 1) = true := by
  simp [Ends, h, Outcome.succeeds, Outcome.failsForGood]

/-- After the last call comes nothing. -/
theorem decide_of_ends {t : Nat} {reply : Reply} (he : r.Ends outcome failed)
    (ha : (outcome failed).answer? now = some (t, reply)) (hr : reply ≠ .broke) :
    r.decide failed reply = (outcome failed).error?.elim .done .giveUp := by
  cases reply with
  | broke => exact absurd rfl hr
  | ok => rw [Outcome.error?_of_answer?_ok ha, decide, Option.elim_none]
  | failed e =>
      obtain ⟨delay, ho⟩ := Outcome.exists_of_answer?_failed ha
      rw [decide, if_pos ((ends_iff_of_failed ho).mp he), ho, Outcome.error?, Option.elim_some]

/-- Any other call failed, and after it comes the wait of the schedule. -/
theorem decide_of_not_ends {t : Nat} {reply : Reply} (he : ¬ r.Ends outcome failed)
    (ha : (outcome failed).answer? now = some (t, reply)) (hr : reply ≠ .broke) :
    r.decide failed reply =
      (r.delay? (UInt32.ofNat failed)).elim .breakDown .repeatAfter := by
  cases reply with
  | broke => exact absurd rfl hr
  | ok => exact absurd (.inl (Outcome.succeeds_of_answer? ha)) he
  | failed e =>
      obtain ⟨delay, ho⟩ := Outcome.exists_of_answer?_failed ha
      rw [decide, if_neg (mt (ends_iff_of_failed ho).mpr he)]
      cases r.delay? (UInt32.ofNat failed) <;> rfl

/-- A series is a call and what follows it. -/
theorem run_of_answer? {t : Nat} {reply : Reply}
    (ha : (outcome failed).answer? now = some (t, reply)) :
    r.run outcome now failed = match r.decide failed reply with
      | .done              => some { calls := [now], waits := [], finish := t, error? := none }
      | .giveUp e          => some { calls := [now], waits := [], finish := t, error? := some e }
      | .breakDown         => none
      | .repeatAfter nanos =>
        (r.run outcome (wake t nanos) (failed + 1)).map (·.again now nanos) := by
  rw [run]
  simp only [ha]
  split <;> (rename_i hd; simp only [hd, Series.again])

/-- The last call is a series of its own. -/
theorem run_of_ends (he : r.Ends outcome failed) (ho : (outcome failed).answers = true)
    (now : Nat) :
    ∃ t reply, (outcome failed).answer? now = some (t, reply) ∧
      r.run outcome now failed =
        some { calls := [now], waits := [], finish := t, error? := (outcome failed).error? } := by
  obtain ⟨t, reply, ha, hr⟩ := Outcome.exists_answer? now ho
  refine ⟨t, reply, ha, ?_⟩
  rw [run_of_answer? ha, decide_of_ends he ha hr]
  cases (outcome failed).error? <;> rfl

/-- Any other call is followed by a wait and the rest of the series. -/
theorem run_of_not_ends (he : ¬ r.Ends outcome failed) (ho : (outcome failed).answers = true)
    (now : Nat) :
    ∃ t reply, (outcome failed).answer? now = some (t, reply) ∧
      r.run outcome now failed = (r.delay? (UInt32.ofNat failed)).bind fun nanos =>
        (r.run outcome (wake t nanos) (failed + 1)).map (·.again now nanos) := by
  obtain ⟨t, reply, ha, hr⟩ := Outcome.exists_answer? now ho
  refine ⟨t, reply, ha, ?_⟩
  rw [run_of_answer? ha, decide_of_not_ends he ha hr]
  cases r.delay? (UInt32.ofNat failed) <;> rfl

end Retry

/-! ### All calls -/

namespace Retry.Series

variable {s : Series} {delay? : Nat → Option Nat} {outcome : Nat → Outcome}
  {now ended nanos k : Nat} {reply : Reply}

theorem Goes.once {e? : Option SinkError} (ha : (outcome 0).answer? now = some (ended, reply))
    (he : e? = (outcome 0).error?) :
    Goes { calls := [now], waits := [], finish := ended, error? := e? } delay? outcome now 0 where
  calls   := rfl
  waits   := rfl
  first   := rfl
  between := nofun
  last    := ⟨now, reply, rfl, ha⟩
  result  := he

theorem Goes.again (ha : (outcome 0).answer? now = some (ended, reply))
    (hn : delay? 0 = some nanos)
    (h : s.Goes (fun j => delay? (j + 1)) (fun j => outcome (j + 1)) (wake ended nanos) k) :
    (s.again now nanos).Goes delay? outcome now (k + 1) where
  calls   := congrArg (· + 1) h.calls
  waits   := congrArg (· + 1) h.waits
  first   := rfl
  between j hj := by
    cases j with
    | zero => exact ⟨now, ended, reply, nanos, rfl, ha, hn, rfl, h.first⟩
    | succ j => exact h.between j (Nat.lt_of_succ_lt_succ hj)
  last    := h.last
  result  := h.result

end Retry.Series

namespace Retry

variable {r : Retry} {outcome : Nat → Outcome} {failed k : Nat}

/-- A series goes on to the first call after which there is no other, if the schedule has a wait
after each call before it. -/
theorem exists_goes (ho : ∀ j, (outcome j).answers = true)
    (hl : ∀ j < k, ¬ r.Ends outcome (failed + j)) (hk : r.Ends outcome (failed + k))
    (hd : ∀ j < k, (r.delay? (UInt32.ofNat (failed + j))).isSome = true) (now : Nat) :
    ∃ s, r.run outcome now failed = some s ∧
      s.Goes (fun j => r.delay? (UInt32.ofNat (failed + j))) (fun j => outcome (failed + j))
        now k := by
  -- the calls before the last are one fewer from each call to the next
  induction k generalizing failed now with
  | zero =>
      obtain ⟨ended, reply, ha, hs⟩ := run_of_ends hk (ho failed) now
      exact ⟨_, hs, Series.Goes.once ha rfl⟩
  | succ k ih =>
      have he : ¬ r.Ends outcome failed := hl 0 k.succ_pos
      obtain ⟨ended, reply, ha, hs⟩ := run_of_not_ends he (ho failed) now
      obtain ⟨nanos, hn⟩ : ∃ nanos, r.delay? (UInt32.ofNat failed) = some nanos :=
        Option.isSome_iff_exists.mp (hd 0 k.succ_pos)
      have hj (j : Nat) : failed + (j + 1) = failed + 1 + j := by omega
      obtain ⟨s, hr, hg⟩ := ih
        (fun j hjk => hj j ▸ hl (j + 1) (Nat.succ_lt_succ hjk)) (hj k ▸ hk)
        (fun j hjk => hj j ▸ hd (j + 1) (Nat.succ_lt_succ hjk)) (wake ended nanos)
      refine ⟨s.again now nanos, ?_, Series.Goes.again ha hn ?_⟩
      · rw [hs, hn, Option.bind_some, hr, Option.map_some]
      · convert hg using 2 with j j <;> rw [hj j]

/-- Without a wait after a call that is not the last there is no going on. -/
theorem run_eq_none {i : Nat} (ho : ∀ j, (outcome j).answers = true)
    (hl : ∀ j ≤ i, ¬ r.Ends outcome (failed + j))
    (hn : r.delay? (UInt32.ofNat (failed + i)) = none) (now : Nat) :
    r.run outcome now failed = none := by
  induction i generalizing failed now with
  | zero =>
      obtain ⟨ended, -, -, hr⟩ := run_of_not_ends (hl 0 (Nat.le_refl 0)) (ho failed) now
      exact hr.trans (congrArg (Option.bind · _) hn)
  | succ i ih =>
      have he : ¬ r.Ends outcome failed := hl 0 (Nat.zero_le _)
      obtain ⟨ended, -, -, hr⟩ := run_of_not_ends he (ho failed) now
      have hj (j : Nat) : failed + (j + 1) = failed + 1 + j := by omega
      rw [hr]
      cases r.delay? (UInt32.ofNat failed) with
      | none => rfl
      | some nanos =>
          rw [Option.bind_some, ih (fun j hji => hj j ▸ hl (j + 1) (Nat.succ_le_succ hji))
            (hj i ▸ hn) (wake ended nanos), Option.map_none]

/-- There is a first call after which there is no other, and it is one of those allowed. -/
theorem exists_isLeast_ends (r : Retry) (outcome : Nat → Outcome) :
    ∃ k, IsLeast {j | r.Ends outcome j} k ∧ k + 1 ≤ max 1 r.maxAttempts.toNat := by
  have hm : r.Ends outcome (r.maxAttempts.toNat - 1) := .inr (.inr (by omega))
  have hk : IsLeast {j | r.Ends outcome j} (Nat.find ⟨_, hm⟩) := Nat.isLeast_find ⟨_, hm⟩
  refine ⟨_, hk, ?_⟩
  have hle := hk.2 hm
  omega

theorem not_ends_of_isLeast (hk : IsLeast {j | r.Ends outcome j} k) :
    ∀ j < k, ¬ r.Ends outcome (0 + j) := by
  intro j hj he
  rw [Nat.zero_add] at he
  exact absurd (hk.2 he) (Nat.not_le.mpr hj)

/-- **A series goes on to the last call there is**, if the schedule has a wait after each call
before it. -/
theorem exists_goes_of_isLeast (ho : ∀ j, (outcome j).answers = true)
    (hk : IsLeast {j | r.Ends outcome j} k)
    (hd : ∀ j < k, (r.delay? (UInt32.ofNat j)).isSome = true) (now : Nat) :
    ∃ s, r.run outcome now = some s ∧
      s.Goes (fun j => r.delay? (UInt32.ofNat j)) outcome now k := by
  have hs := exists_goes ho (not_ends_of_isLeast hk)
  simp only [Nat.zero_add] at hs
  exact hs hk.1 hd now

/-- **A series breaks off** if the schedule has no wait after one of the calls before the last. -/
theorem run_eq_none_of_isLeast (ho : ∀ j, (outcome j).answers = true)
    (hk : IsLeast {j | r.Ends outcome j} k) {i : Nat} (hi : i < k)
    (hn : r.delay? (UInt32.ofNat i) = none) (now : Nat) : r.run outcome now = none := by
  refine run_eq_none ho (fun j hj => not_ends_of_isLeast hk j (Nat.lt_of_le_of_lt hj hi)) ?_ now
  rwa [Nat.zero_add]

/-- A series comes to an end if the schedule always has a wait. -/
theorem exists_run (ho : ∀ j, (outcome j).answers = true) (hd : ∀ i, (r.delay? i).isSome = true)
    (now : Nat) : ∃ s, r.run outcome now = some s := by
  obtain ⟨k, hk, -⟩ := r.exists_isLeast_ends outcome
  obtain ⟨s, hs, -⟩ := exists_goes_of_isLeast ho hk (fun _ _ => hd _) now
  exact ⟨s, hs⟩

end Retry

/-! ### Schedules -/

/-- Numbers that are computed with exactly.  Nothing is infinite, so the reciprocal of zero is
zero. -/
def Arithmetic.exact : Arithmetic ℚ where
  seconds n := n / 1000000000
  mul       := (· * ·)
  power x n := x ^ n.toInt
  least     := min
  vary      := (1 / 2 + ·)
  nanos? x  :=
    if x < 0 ∨ 2 ^ 64 ≤ x then none
    else some (roundDiv .even (x.num.toNat * 1000000000) x.den)

/-- Three calls at most, the first wait of which is a second and the longest two. -/
def Backoff.ofFactor (factor : ℚ) : Backoff ℚ where
  maxAttempts := 3
  baseDelay   := 1000000000
  maxDelay    := 2000000000
  factor      := factor
  jitter      := false

/-- The operation succeeds after `n` failures. -/
def Outcome.recovers (n j : Nat) : Outcome :=
  if j < n then .replies (.failed (.transient "busy")) else .replies .ok

theorem Outcome.answers_recovers (n j : Nat) : (recovers n j).answers = true := by
  unfold recovers
  split <;> rfl

namespace Backoff

/-- **A series of calls ends with the first that succeeds, fails for good or is the last one
allowed.**  There is always such a call, and its number has thirty-two bits; what it comes to is
what the series comes to.  After each call before it there is one wait, the one the schedule has
there, and after the last there is none.  Where the schedule has none there is no going on. -/
theorem retry_law {α : Type} (ar : Arithmetic α) (b : Backoff α) (draw : UInt32 → α)
    (outcome : Nat → Outcome) (now : Nat) (ho : ∀ j, (outcome j).answers = true) :
    ∃ k, IsLeast {j | (b.retry ar draw).Ends outcome j} k ∧
      k + 1 ≤ max 1 b.maxAttempts.toNat ∧ k + 1 < UInt32.size ∧
      ((∀ j < k, (b.delay? ar (draw (.ofNat j)) (.ofNat j)).isSome = true) →
        ∃ s, (b.retry ar draw).run outcome now = some s ∧
          s.Goes (fun j => b.delay? ar (draw (.ofNat j)) (.ofNat j)) outcome now k) ∧
      ∀ j < k, b.delay? ar (draw (.ofNat j)) (.ofNat j) = none →
        (b.retry ar draw).run outcome now = none := by
  obtain ⟨k, hk, hm⟩ : ∃ k, IsLeast {j | (b.retry ar draw).Ends outcome j} k ∧
      k + 1 ≤ max 1 b.maxAttempts.toNat := (b.retry ar draw).exists_isLeast_ends outcome
  have hlt : max 1 b.maxAttempts.toNat < UInt32.size :=
    max_lt (by decide) b.maxAttempts.toNat_lt_size
  exact ⟨k, hk, hm, hm.trans_lt hlt, fun hd => Retry.exists_goes_of_isLeast ho hk hd now,
    fun j hj hn => Retry.run_eq_none_of_isLeast ho hk hj hn now⟩

/-- Where the second call succeeds, it is made after the first wait, and is the last. -/
theorem retry_law_second :
    (∀ j, (Outcome.recovers 1 j).answers = true) ∧
      ∃ s, ((ofFactor 2).retry .exact 0).run (Outcome.recovers 1) 0 = some s ∧
        s.calls.length = 2 ∧ s.waits[0]? = some 1000000000 ∧ s.calls[1]? = some 1000 ∧
          s.error? = none := by
  obtain ⟨k, hk, -, -, hs, -⟩ := retry_law .exact (ofFactor 2) 0 (Outcome.recovers 1) 0
    (Outcome.answers_recovers 1)
  have h0 : (ofFactor 2).delay? .exact 0 0 = some 1000000000 := by decide +kernel
  have h1 : IsLeast {j | ((ofFactor 2).retry .exact 0).Ends (Outcome.recovers 1) j} 1 := by
    refine ⟨by decide, fun j hj => Nat.pos_of_ne_zero ?_⟩
    rintro rfl
    exact absurd hj (by decide)
  obtain rfl := hk.unique h1
  obtain ⟨s, hr, hg⟩ := hs fun j hj => by
    obtain rfl := Nat.lt_one_iff.mp hj
    exact Option.isSome_of_eq_some h0
  obtain ⟨began, ended, reply, nanos, hb, ha, hn, hw, hc⟩ := hg.between 0 Nat.one_pos
  obtain rfl : 0 = began := Option.some.inj (hg.first.symm.trans hb)
  obtain rfl : 1000000000 = nanos := Option.some.inj (h0.symm.trans hn)
  cases ha
  exact ⟨Outcome.answers_recovers 1, s, hr, hg.calls, hw, hc, hg.result⟩

/-- **A schedule with a negative factor breaks off the series**: its second wait would be a time
below zero, so the third call, which would succeed and is the last one allowed, is not made. -/
theorem retry_breaks_off :
    (∀ j, (Outcome.recovers 2 j).answers = true) ∧
      IsLeast {j | ((ofFactor (-1)).retry .exact 0).Ends (Outcome.recovers 2) j} 2 ∧
        ((ofFactor (-1)).retry .exact 0).run (Outcome.recovers 2) 0 = none := by
  have hl : IsLeast {j | ((ofFactor (-1)).retry .exact 0).Ends (Outcome.recovers 2) j} 2 := by
    refine ⟨by decide, fun j hj => ?_⟩
    by_contra hlt
    have : j = 0 ∨ j = 1 := by omega
    rcases this with rfl | rfl <;> exact absurd hj (by decide)
  have hn : (ofFactor (-1)).delay? .exact 0 1 = none := by decide +kernel
  exact ⟨Outcome.answers_recovers 2, hl,
    Retry.run_eq_none_of_isLeast (Outcome.answers_recovers 2) hl Nat.one_lt_two hn 0⟩

end Backoff

end PacketLog
