import PacketLog.Proofs.Clockwork
import PacketLog.Sink.Scripted

/-!
# Proofs — Batch

What becomes of a batch, whatever others do while the writer is at it.

With a batch in hand the writer goes its way step by step (`Timeline.Path`), and where that leads
depends on the sink alone.  Others who act in between change nothing that matters on the way
(`Timeline.Alike`).

* `Timeline.path_series`, `Timeline.path_deliver`: the way through the writes of one line, and of
  one line after the other, is that of `Retry.run` and of `Sink.deliver`.
* `Timeline.keeps_to_path`: the writer keeps to it until it takes another batch.
* `Timeline.settled_of_run`: what is written, given up and counted, and how the sink is called.
* `Timeline.exists_run_of_takes`: the writer gets to the end if it is left alone.
* `Timeline.delivered_in_order`: the order of all lines, and the law of every batch.
-/

namespace PacketLog

/-- The writer has a batch in hand, and is not done with it. -/
def Phase.busy : Phase → Bool
  | .writing .. => true
  | .waiting .. => true
  | .flushing   => true
  | _           => false

/-- Lines are written or given up. -/
def Occurrence.settles : Occurrence → Bool
  | .written _ => true
  | .lost _    => true
  | _          => false

/-- The lines of a batch that are given up together. -/
def Occurrence.abandoned : Occurrence → List (List LogLine)
  | .lost lines => [lines]
  | _           => []

namespace Trace

/-- What has been written and given up, in order. -/
def verdicts (tr : Trace) : Trace := tr.filter (·.settles)

@[simp] theorem verdicts_nil : verdicts [] = [] := rfl

@[simp] theorem verdicts_append (tr tr' : Trace) :
    verdicts (tr ++ tr') = verdicts tr ++ verdicts tr' :=
  List.filter_append tr tr'

theorem verdicts_snoc {o : Occurrence} (tr : Trace) (h : o.settles = false) :
    verdicts (tr ++ [o]) = verdicts tr := by
  simp [verdicts, h]

/-- What concerns only lines that are written or given up is told by the verdicts. -/
theorem flatMap_verdicts {α : Type} {f : Occurrence → List α}
    (hf : ∀ o, o.settles = false → f o = []) (tr : Trace) :
    (verdicts tr).flatMap f = tr.flatMap f := by
  induction tr with
  | nil => rfl
  | cons o tr ih =>
      cases ho : o.settles with
      | true =>
          rw [verdicts, List.filter_cons_of_pos ho, List.flatMap_cons, List.flatMap_cons, ← ih,
            verdicts]
      | false =>
          rw [verdicts, List.filter_cons_of_neg (by simp [ho]), List.flatMap_cons, hf o ho, ← ih,
            verdicts, List.nil_append]

end Trace

/-! ### The counters -/

theorem Occurrence.sinkErrors_count (o : Occurrence) (c : Counters) :
    (o.count c).sinkErrors = c.sinkErrors + .ofNat o.abandoned.length := by
  rcases o with ⟨_, _, _ | _ | _⟩ | _ | _ | _ | _ | _ | _ | _ <;> simp [count, abandoned] <;> rfl

/-- What the second counters have counted beyond the first is what the trace shows, modulo 2⁶⁴. -/
structure Counters.Counts (tr : Trace) (c c' : Counters) : Prop where
  written    : c'.written = c.written + .ofNat (tr.flatMap (·.taken)).length
  dropped    : c'.dropped = c.dropped +
    .ofNat ((Trace.outcomes tr).count .dropped + (tr.flatMap (·.givenUp)).length)
  sinkErrors : c'.sinkErrors = c.sinkErrors + .ofNat (tr.flatMap (·.abandoned)).length

namespace Counters.Counts

variable {tr : Trace} {c c' : Counters}

theorem start (c : Counters) : Counts [] c c :=
  ⟨(UInt64.add_zero _).symm, (UInt64.add_zero _).symm, (UInt64.add_zero _).symm⟩

theorem more (h : Counts tr c c') (o : Occurrence) : Counts (tr ++ [o]) c (o.count c') where
  written    := by simp [o.written_count, h.written, UInt64.add_assoc]
  dropped    := by
    rw [o.dropped_count, h.dropped, UInt64.add_assoc, ← UInt64.ofNat_add]
    simp [Nat.add_add_add_comm]
  sinkErrors := by simp [o.sinkErrors_count, h.sinkErrors, UInt64.add_assoc]

end Counters.Counts

namespace Writer

theorem counts_of_run {w w' : Writer} {tr : Trace} (h : Run Lawful w tr w') :
    w.spool.counters.Counts tr w'.spool.counters := by
  induction h with
  | start => exact .start _
  | more _ step ih => exact step.spool.counters ▸ ih.more _

variable {plan : Plan} {st : Stimulus} {w v v' : Writer}

/-- Where a writer is with a batch, and which of all lines it brings to the sink there. -/
def place (w : Writer) : Phase × Nat := (w.phase, w.brought)

/-- What a writer does with a batch in hand depends on where it is with it, and on nothing else. -/
theorem place_step?_congr (h : w.place = v.place) (hb : v.phase.busy = true) :
    (w.step? plan st).map (·.place) = (v.step? plan st).map (·.place) := by
  obtain ⟨hp, hn⟩ : w.phase = v.phase ∧ w.brought = v.brought := Prod.mk.inj h
  cases hq : v.phase with
  | writing line rest failed =>
      cases st with
      | reply r =>
          simp only [step?, hp, hq, hn, afterWrite]
          cases (plan.retry v.brought).decide failed r with
          | done => cases rest <;> simp only [settle, handOver, place, hn, Option.map_some]
          | giveUp e => simp only [abandon, place, hn, Option.map_some]
          | repeatAfter nanos => simp only [place, Option.map_some]
          | breakDown => simp only [stop, place, hp, hn, Option.map_some]
      | _ => simp only [step?, hp, hq]
  | waiting line rest failed nanos =>
      cases st with
      | timer => simp only [step?, place, hp, hq, hn, Option.map_some]
      | _ => simp only [step?, hp, hq]
  | flushing =>
      cases st with
      | reply r =>
          cases r <;> simp only [step?, hp, hq, hn, afterFlush, stop, place, Option.map_some]
      | _ => simp only [step?, hp, hq]
  | idle | taking | ended =>
      rw [hq] at hb
      cases hb

theorem exists_step?_of_place_eq (h : w.place = v.place) (hb : v.phase.busy = true)
    (hv : v.step? plan st = some v') : ∃ w', w.step? plan st = some w' ∧ w'.place = v'.place := by
  have hc : (w.step? plan st).map (·.place) = _ := place_step?_congr h hb
  rw [hv, Option.map_some] at hc
  exact Option.map_eq_some_iff.mp hc

theorem shows_of_place_eq (h : w.place = v.place) (hb : v.phase.busy = true) :
    w.shows plan st = v.shows plan st := by
  obtain ⟨hp, hn⟩ : w.phase = v.phase ∧ w.brought = v.brought := Prod.mk.inj h
  unfold shows
  rw [hp, hn]
  cases hq : v.phase with
  | taking =>
      rw [hq] at hb
      cases hb
  | _ => rfl

/-- When a line has been written the writer goes on with the next. -/
theorem exists_settle (w : Writer) (rest : List LogLine) :
    ∃ u : Writer, w.settle rest = u.handOver rest ∧ u.brought = w.brought + 1 := ⟨_, rfl, rfl⟩

theorem Work.phase_of_batch {lines : List LogLine} (h : Work plan w st (.batch lines) v) :
    w.phase = .taking := by
  cases h <;> assumption

theorem step?_of_hasEnded (h : w.hasEnded = true) : w.step? plan st = none := by
  cases hp : w.phase with
  | ended how lines => cases st <;> simp only [step?, hp]
  | _ =>
      rw [hasEnded, hp] at h
      cases h

/-- Others leave the writer where it is. -/
theorem Aside.place {o : Occurrence} (h : w.Aside o v) : v.place = w.place := by
  cases h <;> rfl

/-- Others neither write lines nor give them up. -/
theorem Aside.not_settles {o : Occurrence} (h : w.Aside o v) : o.settles = false := by
  cases h <;> rfl

end Writer

namespace Timeline

variable {σ : Type} {s : Sink σ} {plan : Plan} {limit : Nat} {t t' u v : Timeline σ}
  {tr tr' : Trace}

/-! ### Paths -/

/-- What the writer does before a moment, as long as it has a batch in hand. -/
inductive Path (s : Sink σ) (plan : Plan) (limit : Nat) :
    Timeline σ → Trace → Timeline σ → Prop where
  | refl (t : Timeline σ) : Path s plan limit t [] t
  | more {t t' u : Timeline σ} {tr : Trace} (hb : t.writer.phase.busy = true)
      (h : t.step? s plan limit = some t') (p : Path s plan limit t' tr u) :
      Path s plan limit t (t.shows plan :: tr) u

namespace Path

theorem trans {tr₁ tr₂ : Trace} (h₁ : Path s plan limit t tr₁ u)
    (h₂ : Path s plan limit u tr₂ v) : Path s plan limit t (tr₁ ++ tr₂) v := by
  induction h₁ with
  | refl => exact h₂
  | more hb h _ ih => exact .more hb h (ih h₂)

theorem one {time : Nat} {o : Occurrence} (st : Stimulus) (w : Writer)
    (hb : t.writer.phase.busy = true) (hn : t.next? = some (time, st)) (hl : time < limit)
    (hw : t.writer.step? plan st = some w) (ho : t.writer.shows plan st = o)
    (hu : { t with now := time }.follow s w = u) : Path s plan limit t [o] u := by
  have h : t.step? s plan limit = some u := step?_eq_some_iff.mpr ⟨time, st, w, hn, hl, hw, hu⟩
  rw [← ho, ← shows_of_next? hn]
  exact .more hb h (.refl u)

end Path

/-! ### One batch -/

/-- A writer that has just changed. -/
def served (s : Sink σ) (sink : σ) (now : Nat) (calls : List Call) (w : Writer) : Timeline σ :=
  { writer := w, sink, now, calls : Timeline σ }.follow s w

section Served

variable {sink : σ} {now time : Nat} {calls : List Call} {w : Writer} {line : LogLine}
  {rest : List LogLine} {failed nanos : Nat} {r : Reply}

theorem path_writing (hp : w.phase = .writing line rest failed)
    (ha : (s.write sink line).1.answer? now = some (time, r)) (hl : time < limit) :
    Path s plan limit (served s sink now calls w) [w.shows plan (.reply r)]
      (served s (s.write sink line).2 time (calls ++ [⟨now, some line, (s.write sink line).1⟩])
        (w.afterWrite (plan.retry w.brought) line rest failed r)) := by
  rw [served, follow_writing hp]
  refine .one (.reply r) _ (congrArg Phase.busy hp) ?_ hl ?_ rfl rfl
  · simp only [next?, call, hp, ha, Option.map_some]
  · simp only [Writer.step?, call, hp]

theorem path_waiting (hp : w.phase = .waiting line rest failed nanos)
    (hl : Retry.wake now nanos < limit) :
    Path s plan limit (served s sink now calls w) [.other]
      (served s sink (Retry.wake now nanos) calls
        { w with phase := .writing line rest failed }) := by
  rw [served, follow_waiting hp]
  refine .one .timer { w with phase := .writing line rest failed } (congrArg Phase.busy hp) ?_ hl ?_
    rfl rfl
  · simp only [next?, hp]
  · simp only [Writer.step?, hp]

theorem path_flushing (hp : w.phase = .flushing)
    (ha : (s.flush sink).1.answer? now = some (time, r)) (hr : r ≠ .broke) (hl : time < limit) :
    Path s plan limit (served s sink now calls w) [.other]
      (served s (s.flush sink).2 time (calls ++ [⟨now, none, (s.flush sink).1⟩])
        { w with phase := .taking }) := by
  rw [served, follow_flushing hp]
  refine .one (.reply r) { w with phase := .taking } (congrArg Phase.busy hp) ?_ hl ?_ ?_ rfl
  · simp only [next?, call, hp, ha, Option.map_some]
  · cases r with
    | broke => exact absurd rfl hr
    | _ => simp only [Writer.step?, call, hp, Writer.afterFlush]
  · simp only [Writer.shows, call, hp]

/-- What can be seen when a write is answered. -/
theorem shows_reply (hp : w.phase = .writing line rest failed) :
    w.shows plan (.reply r) =
      match (plan.retry w.brought).decide failed r with
      | .done     => .written line
      | .giveUp _ => .lost (line :: rest)
      | _         => .other := by
  cases hd : (plan.retry w.brought).decide failed r with
  | done =>
      rw [Retry.decide_eq_done_iff.mp hd]
      simp only [Writer.shows, hp]
  | _ =>
      have hr : r ≠ .ok := Retry.ne_ok_of_decide hd (by simp)
      cases r with
      | ok => exact absurd rfl hr
      | _ => simp only [Writer.shows, hp, hd]

/-- **A series of writes**, after which the line has been written or the batch is given up. -/
theorem path_series {n : Nat} {st : σ} {series : Retry.Series} (calls : List Call)
    (h : (plan.retry n).run (s.outcomes line st) now failed = some series) (hn : w.brought = n)
    (hp : w.phase = .writing line rest failed) (hl : series.finish < limit) :
    ∃ tr, Path s plan limit (served s (s.after line st failed) now calls w) tr
        (served s (s.after line st (failed + series.calls.length)) series.finish
          (calls ++ s.callsFrom line st failed series.calls)
          (if series.error?.isSome then w.abandon (line :: rest) else w.settle rest)) ∧
      tr.verdicts = [if series.error?.isSome then .lost (line :: rest) else .written line] := by
  fun_induction Retry.run (plan.retry n) (s.outcomes line st) now failed
      generalizing series calls w with
  | case1 => cases h
  | case2 now failed t reply ha hd =>
      cases h
      subst hn
      have p : Path s plan limit (served s _ now calls w) _ _ := path_writing hp ha hl
      rw [shows_reply hp, Writer.afterWrite, hd] at p
      exact ⟨_, p, rfl⟩
  | case3 now failed t reply ha e hd =>
      cases h
      subst hn
      have p : Path s plan limit (served s _ now calls w) _ _ := path_writing hp ha hl
      rw [shows_reply hp, Writer.afterWrite, hd] at p
      exact ⟨_, p, rfl⟩
  | case4 => cases h
  | case5 now failed t reply ha nanos hd ih =>
      obtain ⟨later, hr, rfl⟩ := Option.map_eq_some_iff.mp h
      subst hn
      have hw : Retry.wake t nanos < limit := Nat.lt_of_le_of_lt (Retry.le_finish_of_run hr) hl
      have ht : t < limit := Nat.lt_of_le_of_lt (Nat.le_add_right _ _) hw
      have p : Path s plan limit (served s _ now calls w) _ _ := path_writing hp ha ht
      rw [shows_reply hp, Writer.afterWrite, hd] at p
      obtain ⟨tr, p', hv⟩ := ih (w := { w with phase := .writing line rest (failed + 1) })
        (calls ++ [⟨now, some line, s.outcomes line st failed⟩]) hr rfl rfl hl
      -- the writer goes on from its last attempt as it would from the first
      have hw' : ∀ error : Bool,
          (if error then { w with phase := .writing line rest (failed + 1) }.abandon (line :: rest)
            else { w with phase := .writing line rest (failed + 1) }.settle rest) =
          if error then w.abandon (line :: rest) else w.settle rest := by
        intro error
        cases rest <;> rfl
      rw [hw', Nat.add_right_comm, List.append_assoc] at p'
      exact ⟨_, (p.trans (path_waiting rfl hw)).trans p', (Trace.verdicts_append _ _).trans hv⟩

/-- What becomes of the lines of a batch if the first `k` of them are written. -/
def settling (lines : List LogLine) (k : Nat) : Trace :=
  (lines.take k).map .written ++ if k < lines.length then [.lost (lines.drop k)] else []

theorem settling_cons (line : LogLine) (rest : List LogLine) (k : Nat) :
    settling (line :: rest) (k + 1) = .written line :: settling rest k := by
  simp [settling]

/-- **Line after line**, up to the first that is given up. -/
theorem path_deliver {n : Nat} {lines : List LogLine} {st : σ} {d : Delivery σ}
    (h : s.deliver plan.retry n lines st now = some d) (hl : d.finish < limit) (calls : List Call)
    (hn : w.brought = n) :
    ∃ tr w', Path s plan limit (served s st now calls (w.handOver lines)) tr
        (served s d.sink d.finish (calls ++ d.calls) w') ∧
      w'.phase = .flushing ∧ tr.verdicts = settling lines d.written := by
  revert hl calls w
  refine Sink.deliver_induction
    (P := fun n lines st now d => ∀ {w : Writer}, d.finish < limit → ∀ calls : List Call,
      w.brought = n → ∃ tr w',
        Path s plan limit (served s st now calls (w.handOver lines)) tr
            (served s d.sink d.finish (calls ++ d.calls) w') ∧
          w'.phase = .flushing ∧ tr.verdicts = settling lines d.written)
    ?nil ?fails ?takes h
  case nil =>
    intro n st now w _ calls _
    rw [List.append_nil]
    exact ⟨[], _, .refl _, rfl, rfl⟩
  case fails =>
    intro n line rest st now series hr he w hl calls hn
    obtain ⟨tr, p, hv⟩ := path_series (w := w.handOver (line :: rest)) calls hr hn rfl hl
    rw [if_pos he] at p hv
    rw [Nat.zero_add] at p
    exact ⟨tr, _, p, rfl, hv.trans (by rw [Sink.written_deliverOne he]; rfl)⟩
  case takes =>
    intro n line rest st now series d hr he hd ih w hl calls hn
    have hl' : series.finish < limit := Nat.lt_of_le_of_lt (Sink.le_finish_of_deliver hd) hl
    obtain ⟨tr, p, hv⟩ := path_series (w := w.handOver (line :: rest)) calls hr hn rfl hl'
    obtain ⟨u, hu, hb⟩ := (w.handOver (line :: rest)).exists_settle rest
    rw [he] at p hv
    rw [Nat.zero_add] at p
    -- the line after this one is the next that is brought to the sink
    have hn' : u.brought = n + 1 := hb.trans (congrArg (· + 1) hn)
    obtain ⟨tr', w', p', hp, hv'⟩ := ih hl (calls ++ s.callsFrom line st 0 series.calls) hn'
    refine ⟨tr ++ tr', w', ?_, hp, ?_⟩
    · rw [List.append_assoc, ← hu] at p'
      exact p.trans p'
    · rw [Trace.verdicts_append, hv, hv', Sink.written_after_deliverOne he, settling_cons]
      rfl

/-- **The whole batch**, which ends with a flush. -/
theorem path_batch {lines : List LogLine} {st : σ} {d : Delivery σ}
    (h : s.deliver plan.retry w.brought lines st now = some d)
    (ha : (s.flush d.sink).1.answer? d.finish = some (time, r)) (hr : r ≠ .broke)
    (hl : time < limit) (calls : List Call) :
    ∃ tr u, Path s plan limit (served s st now calls (w.handOver lines)) tr u ∧
      u.writer.phase = .taking ∧ tr.verdicts = settling lines d.written ∧
      u.calls = calls ++ d.calls ++ [⟨d.finish, none, (s.flush d.sink).1⟩] := by
  have hf : d.finish < limit := Nat.lt_of_le_of_lt (Outcome.le_of_answer? ha) hl
  obtain ⟨tr, w', p, hp, hv⟩ := path_deliver h hf calls rfl
  refine ⟨_, _, p.trans (path_flushing hp ha hr hl), rfl, ?_, rfl⟩
  exact (Trace.verdicts_append _ _).trans ((List.append_nil _).trans hv)

end Served

/-! ### What others do in the meantime -/

/-- The timelines differ in nothing that matters while a batch is in hand. -/
structure Alike (t v : Timeline σ) : Prop where
  place : t.writer.place = v.writer.place
  sink  : t.sink = v.sink
  due   : t.due = v.due
  calls : t.calls = v.calls

theorem Alike.refl (t : Timeline σ) : Alike t t := ⟨rfl, rfl, rfl, rfl⟩

theorem Alike.phase (h : Alike t v) : t.writer.phase = v.writer.phase := (Prod.mk.inj h.place).1

theorem alike_follow {w w' : Writer} (h : w.place = w'.place) (hs : t.sink = v.sink)
    (hn : t.now = v.now) (hc : t.calls = v.calls) : Alike (t.follow s w) (v.follow s w') := by
  have hp : w.phase = w'.phase := (Prod.mk.inj h).1
  cases hp' : w'.phase with
  | writing line rest failed =>
      rw [follow_writing (hp.trans hp'), follow_writing hp', hs]
      exact ⟨h, rfl, by simp only [call, hn], by simp only [call, hn, hc]⟩
  | flushing =>
      rw [follow_flushing (hp.trans hp'), follow_flushing hp', hs]
      exact ⟨h, rfl, by simp only [call, hn], by simp only [call, hn, hc]⟩
  | waiting line rest failed nanos =>
      rw [follow_waiting (hp.trans hp'), follow_waiting hp', hn]
      exact ⟨h, hs, rfl, hc⟩
  | _ =>
      simp only [follow, hp.trans hp', hp']
      exact ⟨h, hs, rfl, hc⟩

theorem Alike.next? (h : Alike t v) (hb : v.writer.phase.busy = true) : t.next? = v.next? := by
  unfold Timeline.next?
  rw [h.phase, h.due]
  cases hp : v.writer.phase with
  | idle | taking =>
      rw [hp] at hb
      cases hb
  | _ => rfl

/-- What can be done in one of them can be done in the other. -/
theorem Alike.exists_step? (h : Alike t v) (hb : v.writer.phase.busy = true)
    (hv : v.step? s plan limit = some u) :
    ∃ t', t.step? s plan limit = some t' ∧ Alike t' u ∧ t.shows plan = v.shows plan := by
  obtain ⟨time, st, w', hn, hl, hw', rfl⟩ := step?_eq_some_iff.mp hv
  have hn' : t.next? = some (time, st) := (h.next? hb).trans hn
  obtain ⟨w, hw, hp⟩ := Writer.exists_step?_of_place_eq h.place hb hw'
  refine ⟨{ t with now := time }.follow s w, ?_, ?_, ?_⟩
  · exact step?_eq_some_iff.mpr ⟨time, st, w, hn', hl, hw, rfl⟩
  · exact alike_follow hp h.sink rfl h.calls
  · rw [shows_of_next? hn, shows_of_next? hn']
    exact Writer.shows_of_place_eq h.place hb

/-- A writer that has ended stays so. -/
theorem hasEnded_of_step {o : Occurrence} (h : Step s plan t o t')
    (he : t.writer.hasEnded = true) : t'.writer.hasEnded = true := by
  cases h with
  | work h =>
      obtain ⟨time, st, w, -, -, hw, -⟩ := step?_eq_some_iff.mp h
      rw [Writer.step?_of_hasEnded he] at hw
      cases hw
  | aside h =>
      unfold Writer.hasEnded at he ⊢
      rwa [h.phase]
  | abort h => rfl
  | pass now => exact he

theorem shows_taking (hp : t.writer.phase = .taking) :
    t.shows plan = .batch (t.writer.queue.take (max plan.batchSize 1)).1 := by
  simp only [shows, next?, hp, Writer.shows]

/-- **Whatever others do, the writer keeps to its path** until it takes another batch, unless it is
stopped. -/
theorem keeps_to_path {t₁ : Timeline σ} {tr₁ : Trace} (h : Run (Step s plan) t₁ tr t)
    (hn : ∀ ls, .batch ls ∉ tr) (p : Path s plan limit t₁ tr₁ u)
    (hu : u.writer.phase = .taking) (he : t.writer.hasEnded = false) :
    ∃ v tr₂, Alike t v ∧ Path s plan limit v tr₂ u ∧
      tr.verdicts ++ tr₂.verdicts = tr₁.verdicts := by
  induction h with
  | start => exact ⟨t₁, tr₁, .refl t₁, p, rfl⟩
  | more run step ih =>
      rename_i tr o t t'
      have he' : t.writer.hasEnded = false := by
        cases hc : t.writer.hasEnded with
        | false => rfl
        | true =>
            rw [hasEnded_of_step step hc] at he
            cases he
      obtain ⟨v, tr₂, ha, p₂, hv⟩ := ih (fun ls hm => hn ls (List.mem_append_left _ hm)) he'
      have ho : ∀ ls, o ≠ .batch ls := fun ls ho =>
        hn ls (List.mem_append_right _ (List.mem_singleton.mpr ho.symm))
      cases step with
      | work hw =>
          cases p₂ with
          | refl => exact absurd (shows_taking (ha.phase.trans hu)) (ho _)
          | more hb hv' p₂ =>
              obtain ⟨t'', hw', ha', hs⟩ := ha.exists_step? hb hv'
              rw [step?_unique hw' hw] at ha'
              refine ⟨_, _, ha', p₂, ?_⟩
              rw [Trace.verdicts_append, List.append_assoc, ← Trace.verdicts_append, hs]
              exact hv
      | aside h =>
          rw [Trace.verdicts_snoc _ h.not_settles]
          exact ⟨v, tr₂, ⟨h.place.trans ha.place, ha.sink, ha.due, ha.calls⟩, p₂, hv⟩
      | abort h => cases he
      | pass now =>
          rw [Trace.verdicts_snoc _ rfl]
          exact ⟨v, tr₂, ⟨ha.place, ha.sink, ha.due, ha.calls⟩, p₂, hv⟩

/-- From wherever the writer is on its path it gets to the end if it is left alone. -/
theorem exists_run_of_path (p : Path s plan limit v tr u) (hu : u.writer.phase = .taking)
    (ha : Alike t v) :
    ∃ tr' t', Run (Step s plan) t tr' t' ∧ (∀ ls, .batch ls ∉ tr') ∧
      t'.writer.phase = .taking ∧ t.run s plan limit = t'.run s plan limit := by
  induction p generalizing t with
  | refl => exact ⟨[], t, .start, nofun, ha.phase.trans hu, rfl⟩
  | more hb hv p ih =>
      obtain ⟨t₁, h₁, ha₁, hs⟩ := ha.exists_step? hb hv
      obtain ⟨tr', t', run, hn, hp, hr⟩ := ih hu ha₁
      refine ⟨_, t', (Run.one (.work h₁)).trans run, fun ls hm => ?_, hp,
        (run_of_step? h₁).trans hr⟩
      rcases List.mem_cons.mp hm with hm | hm
      · obtain ⟨st, hw⟩ := work_of_step? h₁
        rw [← hm] at hw
        rw [← ha.phase, hw.phase_of_batch] at hb
        cases hb
      · exact hn ls hm

/-! ### The law -/

/-- The writer takes these lines in hand. -/
structure Takes (s : Sink σ) (plan : Plan) (t : Timeline σ) (lines : List LogLine)
    (t' : Timeline σ) : Prop where
  phase : t.writer.phase = .taking
  batch : (t.writer.queue.take (max plan.batchSize 1)).1 = lines
  nonempty : lines ≠ []
  step : ∃ limit, t.step? s plan limit = some t'

theorem Takes.exists_served {lines : List LogLine} (h : Takes s plan t lines t') :
    ∃ w : Writer, t' = served s t.sink t.now t.calls (w.handOver lines) ∧
      w.brought = t.writer.brought := by
  obtain ⟨limit, hs⟩ := h.step
  obtain ⟨time, st, w, hn, -, hw, rfl⟩ := step?_eq_some_iff.mp hs
  simp only [next?, h.phase, Option.some.injEq, Prod.mk.injEq] at hn
  obtain ⟨rfl, rfl⟩ := hn
  simp only [Writer.step?, h.phase, Option.some.injEq] at hw
  rw [← hw]
  have hl := h.batch
  unfold Writer.takeBatch
  rcases ht : t.writer.queue.take (max plan.batchSize 1) with ⟨_ | ⟨line, rest⟩, q⟩
  · rw [ht] at hl
    exact absurd hl.symm h.nonempty
  · rw [ht] at hl
    rw [← hl]
    exact ⟨_, rfl, rfl⟩

/-- What a batch is found to have come to, where `d` is what the sink made of its lines. -/
structure Settled (s : Sink σ) (lines : List LogLine) (d : Delivery σ) (t : Timeline σ) (tr : Trace)
    (t' : Timeline σ) : Prop where
  /-- The lines before the first whose writes end in an error are written, in order. -/
  written : tr.flatMap (·.taken) = lines.take d.written
  /-- That line and those after it are given up. -/
  givenUp : tr.flatMap (·.givenUp) = lines.drop d.written
  /-- The sink is called for the lines and then, once, to flush. -/
  calls : t'.calls = t.calls ++ d.calls ++ [⟨d.finish, none, (s.flush d.sink).1⟩]
  /-- The lines that are written are those the sink has taken. -/
  taken : Call.taken d.calls = lines.take d.written
  /-- Each line is brought to the sink as often as the series of its writes says. -/
  brought : d.calls.map (·.line?) = (lines.zip d.series).flatMap fun (line, series) =>
    List.replicate series.calls.length (some line)
  /-- No line after the first whose writes end in an error is brought to the sink. -/
  reached : d.series.length = min (d.written + 1) lines.length
  linesWritten : t'.writer.spool.counters.written =
    t.writer.spool.counters.written + .ofNat d.written
  /-- Events that come to nothing in the meantime are counted as dropped too. -/
  linesDropped : t'.writer.spool.counters.dropped =
    t.writer.spool.counters.dropped +
      .ofNat (tr.outcomes.count .dropped + (lines.length - d.written))
  sinkErrors : t'.writer.spool.counters.sinkErrors =
    t.writer.spool.counters.sinkErrors + if d.written < lines.length then 1 else 0

section Batch

variable {lines : List LogLine} {d : Delivery σ} {t₁ t₂ : Timeline σ} {time : Nat} {r : Reply}

theorem flatMap_taken_settling (lines : List LogLine) (k : Nat) :
    (settling lines k).flatMap (·.taken) = lines.take k := by
  rw [settling, List.flatMap_append, List.flatMap_map]
  split <;> simp [Occurrence.taken]

theorem flatMap_givenUp_settling (lines : List LogLine) (k : Nat) :
    (settling lines k).flatMap (·.givenUp) = lines.drop k := by
  rw [settling, List.flatMap_append, List.flatMap_map]
  split
  · simp [Occurrence.givenUp]
  · rename_i hk
    simp [Occurrence.givenUp, List.drop_eq_nil_of_le (Nat.le_of_not_lt hk)]

theorem flatMap_abandoned_settling (lines : List LogLine) (k : Nat) :
    (settling lines k).flatMap (·.abandoned) =
      if k < lines.length then [lines.drop k] else [] := by
  rw [settling, List.flatMap_append, List.flatMap_map]
  split <;> simp [Occurrence.abandoned]

/-- The counters are the same before and after the writer takes a batch. -/
theorem Takes.counters (h : t.Takes s plan lines t₁) :
    t₁.writer.spool.counters = t.writer.spool.counters := by
  obtain ⟨limit, hs⟩ := h.step
  have hc := (lawful_of_step (.work hs)).spool.counters
  rwa [shows_taking h.phase] at hc

theorem settled_of_verdicts (ht : t.Takes s plan lines t₁)
    (hd : s.deliver plan.retry t.writer.brought lines t.sink t.now = some d)
    (h : Run (Step s plan) t₁ tr t₂)
    (hv : tr.verdicts = settling lines d.written)
    (hc : t₂.calls = t.calls ++ d.calls ++ [⟨d.finish, none, (s.flush d.sink).1⟩]) :
    Settled s lines d t tr t₂ := by
  have hk := Sink.written_le_of_deliver hd
  have hn := Writer.counts_of_run (h.map (·.writer) lawful_of_step)
  have told : ∀ {α : Type} {f : Occurrence → List α}, (∀ o, o.settles = false → f o = []) →
      tr.flatMap f = (settling lines d.written).flatMap f :=
    fun hf => hv ▸ (Trace.flatMap_verdicts hf tr).symm
  have hw : tr.flatMap (·.taken) = lines.take d.written :=
    (told fun o _ => by cases o <;> trivial).trans (flatMap_taken_settling _ _)
  have hg : tr.flatMap (·.givenUp) = lines.drop d.written :=
    (told fun o _ => by cases o <;> trivial).trans (flatMap_givenUp_settling _ _)
  have he : tr.flatMap (·.abandoned) =
      if d.written < lines.length then [lines.drop d.written] else [] :=
    (told fun o _ => by cases o <;> trivial).trans (flatMap_abandoned_settling _ _)
  rw [ht.counters] at hn
  exact {
    written := hw
    givenUp := hg
    calls := hc
    taken := Sink.taken_of_deliver hd
    brought := Sink.line?_of_deliver hd
    reached := Sink.length_series_of_deliver hd
    linesWritten := by rw [hn.written, hw, List.length_take_of_le hk]
    linesDropped := by rw [hn.dropped, hg, List.length_drop]
    sinkErrors := by
      rw [hn.sinkErrors, he]
      split <;> rfl }

/-- **Whatever others do while the writer is at a batch**, the batch comes to what the sink makes of
it. -/
theorem settled_of_run (ht : t.Takes s plan lines t₁)
    (hd : s.deliver plan.retry t.writer.brought lines t.sink t.now = some d)
    (ha : (s.flush d.sink).1.answer? d.finish = some (time, r)) (hr : r ≠ .broke)
    (h : Run (Step s plan) t₁ tr t₂) (hn : ∀ ls, .batch ls ∉ tr)
    (hp : t₂.writer.phase = .taking) : Settled s lines d t tr t₂ := by
  obtain ⟨w, rfl, hw⟩ := ht.exists_served
  rw [← hw] at hd
  obtain ⟨tr₁, u, p, hu, hv, hc⟩ := path_batch hd ha hr (Nat.lt_succ_self time) t.calls
  obtain ⟨v, tr₂, hl, p₂, hs⟩ := keeps_to_path h hn p hu (by rw [Writer.hasEnded, hp])
  -- the writer is at the end of its path, for it has no batch in hand
  cases p₂ with
  | refl => exact settled_of_verdicts ht (hw ▸ hd) h (by simpa [hv] using hs) (hl.calls.trans hc)
  | more hb _ _ =>
      rw [← hl.phase, hp] at hb
      cases hb

/-- However far the writer is with a batch, it is done with it after the sink has answered. -/
theorem exists_run_of_takes (ht : t.Takes s plan lines t₁)
    (hd : s.deliver plan.retry t.writer.brought lines t.sink t.now = some d)
    (ha : (s.flush d.sink).1.answer? d.finish = some (time, r)) (hr : r ≠ .broke)
    (h : Run (Step s plan) t₁ tr t₂) (hn : ∀ ls, .batch ls ∉ tr)
    (he : t₂.writer.hasEnded = false) (hl : time < limit) :
    ∃ tr' t₃, Run (Step s plan) t₂ tr' t₃ ∧ (∀ ls, .batch ls ∉ tr') ∧
      t₃.writer.phase = .taking ∧ t₂.run s plan limit = t₃.run s plan limit := by
  obtain ⟨w, rfl, hw⟩ := ht.exists_served
  rw [← hw] at hd
  obtain ⟨tr₁, u, p, hu, -, -⟩ := path_batch hd ha hr hl t.calls
  obtain ⟨v, tr₂, hv, p₂, -⟩ := keeps_to_path h hn p hu he
  exact exists_run_of_path p₂ hu hv

end Batch

/-- **Lines are delivered in order and at most once.**  After any run the lines the sink has taken
are in order among those the queue has accepted; and every batch the writer takes comes to what the
sink makes of its lines, unless a call hangs or breaks down or the writer is stopped. -/
theorem delivered_in_order {capacity : Nat} {sink : σ}
    (h : Run (Step s plan) { writer := { spool := { queue := .new capacity } }, sink } tr t) :
    InOrder plan tr t ∧
    ∀ (lines : List LogLine) (t₁ : Timeline σ), t.Takes s plan lines t₁ →
      ((∀ st line, (s.write st line).1.answers = true) →
        (∀ n i, ((plan.retry n).delay? i).isSome = true) →
          ∃ d, s.deliver plan.retry t.writer.brought lines t.sink t.now = some d) ∧
      ∀ (d : Delivery σ) (time : Nat) (r : Reply),
        s.deliver plan.retry t.writer.brought lines t.sink t.now = some d →
        (s.flush d.sink).1.answer? d.finish = some (time, r) → r ≠ .broke →
          ∀ (tr' : Trace) (t₂ : Timeline σ), Run (Step s plan) t₁ tr' t₂ →
            (∀ ls, .batch ls ∉ tr') →
              (t₂.writer.phase = .taking → Settled s lines d t tr' t₂) ∧
              (t₂.writer.hasEnded = false → ∀ limit, time < limit →
                ∃ tr'' t₃, Run (Step s plan) t₂ tr'' t₃ ∧ (∀ ls, .batch ls ∉ tr'') ∧
                  t₃.writer.phase = .taking ∧ t₂.run s plan limit = t₃.run s plan limit) :=
  ⟨inOrder_of_run h, fun lines _ ht =>
    ⟨fun hs hd => Sink.exists_deliver hs hd t.writer.brought lines t.sink t.now,
      fun _ _ _ hd ha hr _ _ h hn =>
        ⟨settled_of_run ht hd ha hr h hn,
          fun he _ hl => exists_run_of_takes ht hd ha hr h hn he hl⟩⟩⟩

/-- Two lines are offered and taken in one batch; the sink takes the first and refuses the second
for good. -/
theorem delivered_in_order_refused :
    ∃ (plan : Plan) (line line' : LogLine) (d : Delivery Script) (tr tr' : Trace)
      (t t₁ t₂ : Timeline Script),
      Run (Step .scripted plan)
          { writer := { spool := { queue := .new 2 } },
            sink := { writes := [.replies .ok, .replies (.failed (.permanent ""))] } } tr t ∧
        t.Takes .scripted plan [line, line'] t₁ ∧ Run (Step .scripted plan) t₁ tr' t₂ ∧
        Settled .scripted [line, line'] d t tr' t₂ ∧
        tr'.flatMap (·.taken) = [line] ∧ tr'.flatMap (·.givenUp) = [line'] := by
  let line (text : String) : LogLine := { kind := .ping, client := "c1", time := ⟨0, 0⟩, text }
  let plan : Plan :=
    { batchSize := 2, retry := fun _ => { maxAttempts := 1, delay? := fun _ => none } }
  let script : Script := { writes := [.replies .ok, .replies (.failed (.permanent ""))] }
  have wakes : ∀ {t t' : Timeline Script}, t.step? .scripted plan 1 = some t' →
    Step .scripted plan t (t.shows plan) t' := fun h => .work h
  have run : Run (Step .scripted plan)
      { writer := { spool := { queue := .new 2 } }, sink := script } _ _ :=
    ((Run.one (.aside (.offer (line "1")))).more (.aside (.offer (line "2")))).more (wakes rfl)
  have hd : (Sink.deliver .scripted plan.retry 0 [line "1", line "2"] script 0).map
      (fun d => (d.written, (Sink.scripted.flush d.sink).1, d.finish)) =
        some (1, .replies .ok, 0) := by
    decide +kernel
  obtain ⟨d, hd, he⟩ := Option.map_eq_some_iff.mp hd
  obtain ⟨hw, hf⟩ := Prod.mk.inj he
  obtain ⟨hf, hn⟩ := Prod.mk.inj hf
  have ha : (Sink.scripted.flush d.sink).1.answer? d.finish = some (0, .ok) := by
    rw [hf, hn]
    rfl
  -- the batch is taken, and what is left alone after that comes to its end
  have batch := ((delivered_in_order run).2 [line "1", line "2"] _ ⟨rfl, rfl, nofun, 1, rfl⟩).2
    d 0 .ok hd ha nofun
  obtain ⟨tr', t₂, after, alone, hp, -⟩ := (batch [] _ .start nofun).2 rfl 1 Nat.one_pos
  have settled := (batch tr' t₂ after alone).1 hp
  exact ⟨plan, line "1", line "2", d, _, tr', _, _, t₂, run, ⟨rfl, rfl, nofun, 1, rfl⟩, after,
    settled, settled.written.trans (by rw [hw]; rfl), settled.givenUp.trans (by rw [hw]; rfl)⟩

end Timeline

end PacketLog
