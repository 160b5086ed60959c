import Rollup.Clock
import Rollup.Proofs.IntakeRuns

/-!
# Flushes by the clock

A first aggregation takes the time from the wall clock, and so the time since its last flush too. Beside
it is written down what the clock showed at that flush, instant and all. A flush is made exactly when the
wall clock shows that the period has passed. That is in time by the instant as well, unless the wall time
fell behind the time that passed.
-/

namespace Rollup

variable {τ M : Type}

/-! ## Wall time and time -/

namespace Clock

variable {before after : Clock}

/-- The wall time moved on by no less than the time that passed. -/
def KeepsUp (before after : Clock) : Prop :=
  before.wall + (after.elapsed - before.elapsed : Int) ≤ after.wall

instance (before after : Clock) : Decidable (before.KeepsUp after) :=
  inferInstanceAs (Decidable (_ ≤ _))

/-- By the wall clock, the period has passed. -/
def ShowsPassed (period : Duration) (before after : Clock) : Prop :=
  Timestamp.ofDuration period ≤ Timestamp.minus after.nowMillis before.nowMillis

theorem KeepsUp.showsPassed (h : before.KeepsUp after) {period : Duration}
    (hpassed : before.elapsed + period.nanos ≤ after.elapsed) (hepoch : 0 ≤ before.wall)
    (hrange : after.wall / 1000000 ≤ Timestamp.greatest) : ShowsPassed period before after := by
  have hwall : before.wall + period.nanos ≤ after.wall := by
    unfold KeepsUp at h
    omega
  have hbefore : before.nowMillis = before.wall / 1000000 := by
    unfold nowMillis
    omega
  have hafter : after.nowMillis = after.wall / 1000000 := by
    unfold nowMillis
    omega
  unfold ShowsPassed Timestamp.ofDuration Timestamp.minus Duration.millis
  rw [hbefore, hafter]
  simp only [Timestamp.least, Timestamp.greatest] at *
  omega

end Clock

/-! ## Intakes by the clock -/

/-- What a first aggregation works with that is not its own, a clock among it. -/
structure ClockedOutlet (τ M : Type) where
  clock : τ → Clock
  /-- Takes in a merged record. -/
  next : M → StateM τ Unit

/-- The wall time is all that a first aggregation reads of the clock. -/
def ClockedOutlet.outlet (around : ClockedOutlet τ M) : Outlet τ M where
  now others := (around.clock others).nowMillis
  next := around.next

/-- An intake, and the clock at its last flush that was due, or when it was made. -/
structure TimedIntake (τ M : Type) where
  intake : Intake τ M
  last : Clock

namespace TimedIntake

def intakePart : Part (TimedIntake τ M) (Intake τ M) :=
  ⟨intake, fun timed intake => { timed with intake }⟩

def start (around : ClockedOutlet τ M) (model : Model) (period : Duration) (others : τ) :
    TimedIntake τ M where
  intake := { stage := .build model period (around.clock others).nowMillis, others }
  last := around.clock others

def clock (around : ClockedOutlet τ M) (timed : TimedIntake τ M) : Clock :=
  around.clock timed.intake.others

/-- Notes the clock if a flush is due. -/
def note (around : ClockedOutlet τ M) (timed : TimedIntake τ M) : TimedIntake τ M :=
  if timed.intake.stage.isDue (timed.clock around).nowMillis then
    { timed with last := timed.clock around }
  else timed

@[simp]
theorem note_intake (around : ClockedOutlet τ M) (timed : TimedIntake τ M) :
    (note around timed).intake = timed.intake := by
  unfold note
  split <;> rfl

variable [Record M]

/-- The consumer of the intake, whose flushes are noted. -/
def consumer (around : ClockedOutlet τ M) : Consumer (TimedIntake τ M) M where
  consume runner batch := do
    modify (note around)
    intakePart.run ((Intake.consumer around.outlet).consume runner batch)
  idle := do
    modify (note around)
    intakePart.run (Intake.consumer around.outlet).idle
  exit := intakePart.run (Intake.consumer around.outlet).exit

/-- The calls that look whether a flush is due. -/
inductive Call (M : Type) where
  | consume (runner : Runner) (batch : List M)
  | idle

namespace Call

/-- The batch that comes with a call. -/
def batch : Call M → List M
  | consume _ batch => batch
  | idle => []

/-- The intake with the batch in its buffer. -/
def merged (call : Call M) (timed : TimedIntake τ M) : Intake τ M :=
  { timed.intake with stage := timed.intake.stage.absorb call.batch }

def run (around : ClockedOutlet τ M) (timed : TimedIntake τ M) : Call M → TimedIntake τ M
  | consume runner batch => (((consumer around).consume runner batch).run timed).2
  | idle => ((consumer around).idle.run timed).2

variable (around : ClockedOutlet τ M) (timed : TimedIntake τ M)

theorem run_eq (call : Call M) : call.run around timed = { note around timed with
    intake := ((Intake.flushIfDue around.outlet).run (call.merged timed)).2 } := by
  have hnoted := note_intake around timed
  cases call with
  | consume runner batch =>
    show { note around timed with intake := ((Intake.flushIfDue around.outlet).run
      { (note around timed).intake with stage := (note around timed).intake.stage.absorb batch }).2 } = _
    rw [hnoted]
    rfl
  | idle =>
    show { note around timed with intake :=
      ((Intake.flushIfDue around.outlet).run (note around timed).intake).2 } = _
    rw [hnoted]
    rfl

variable {around timed}

theorem run_of_due (call : Call M)
    (hdue : timed.intake.stage.isDue (timed.clock around).nowMillis) :
    call.run around timed = {
      intake := (call.merged timed).emptied (timed.clock around).nowMillis
        ((call.merged timed).served around.outlet)
      last := timed.clock around } := by
  have hflush := Intake.flushIfDue_run_of_due around.outlet (call.merged timed) hdue
  rw [run_eq, hflush, note, if_pos hdue]
  rfl

theorem run_of_not_due (call : Call M)
    (hdue : ¬ timed.intake.stage.isDue (timed.clock around).nowMillis) :
    call.run around timed = { timed with intake := call.merged timed } := by
  have hflush := Intake.flushIfDue_run_of_not_due around.outlet (call.merged timed) hdue
  rw [run_eq, hflush, note, if_neg hdue]

end Call

/-! ## Runs -/

def accept (around : ClockedOutlet τ M) (settings : PoolSettings) (phase : PoolPhase) (record : M) :
    StateM (ServedQueue (TimedIntake τ M) M) (Except (Refused M) Unit) := do
  let answer ← Pool.produce settings phase (ServedQueue.line (consumer around)) record
  if answer.isOk then
    ServedQueue.othersPart.run (intakePart.run (Intake.stagePart.modify (·.countAccepted)))
  return answer

def next (around : ClockedOutlet τ M) (served : ServedQueue (TimedIntake τ M) M) :
    IntakeStep τ M → ServedQueue (TimedIntake τ M) M
  | .accept settings phase record => ((accept around settings phase record).run served).2
  | .drain runner channel batchSize batches =>
    (((ServedQueue.line (consumer around)).drainBatches runner channel batchSize batches).run served).2
  | .idle => ((ServedQueue.line (consumer around)).consumer.idle.run served).2
  | .flush =>
    ((ServedQueue.othersPart.run (intakePart.run (Intake.flush around.outlet))).run served).2
  | .outside change =>
    ((ServedQueue.othersPart.run (intakePart.run (Intake.othersPart.modify change))).run served).2
  | .bind owners =>
    let pool := (ServedQueue.line (consumer around)).attachment served.queue.channels.length
    ((pool.bind owners).run.run served).2
  | .stop settings =>
    let pool := (ServedQueue.line (consumer around)).attachment served.queue.channels.length
    ((Pool.stop settings [pool]).run served).2

def after (around : ClockedOutlet τ M) (steps : List (IntakeStep τ M))
    (served : ServedQueue (TimedIntake τ M) M) : ServedQueue (TimedIntake τ M) M :=
  steps.foldl (next around) served

/-! ## What is noted -/

/-- What the stage keeps of its last flush that was due is what the clock showed then. -/
structure FollowsClock (period : Duration) (timed : TimedIntake τ M) : Prop where
  period : timed.intake.stage.flushPeriod = Timestamp.ofDuration period
  last : timed.intake.stage.lastFlush = timed.last.nowMillis

namespace FollowsClock

variable {period : Duration} {around : ClockedOutlet τ M} {timed : TimedIntake τ M}

omit [Record M] in
theorem isDue_iff (h : timed.FollowsClock period) :
    timed.intake.stage.isDue (timed.clock around).nowMillis = true ↔
      Clock.ShowsPassed period timed.last (timed.clock around) := by
  simp only [FirstLevel.isDue, h.period, h.last, decide_eq_true_iff, Clock.ShowsPassed]

theorem call (h : timed.FollowsClock period) (call : Call M) :
    (call.run around timed).FollowsClock period := by
  by_cases hdue : timed.intake.stage.isDue (timed.clock around).nowMillis
  · rw [call.run_of_due hdue]
    exact ⟨h.period, rfl⟩
  · rw [call.run_of_not_due hdue]
    exact ⟨h.period, h.last⟩

omit [Record M] in
theorem flush (around : ClockedOutlet τ M) (period : Duration) :
    Preserves (intakePart.run (Intake.flush around.outlet)) (FollowsClock period) := by
  intro timed h
  have hflush := Intake.flush_run_eq around.outlet timed.intake
  show FollowsClock period { timed with intake := ((Intake.flush around.outlet).run timed.intake).2 }
  rw [hflush]
  exact ⟨h.period, h.last⟩

theorem line_respects (around : ClockedOutlet τ M) (period : Duration) :
    (ServedQueue.line (consumer around)).Respects fun served => served.others.FollowsClock period where
  queue _ _ hserved := hserved
  consume runner batch _ hserved := hserved.call (.consume runner batch)
  onError _ _ _ _ hserved := hserved

theorem accept (around : ClockedOutlet τ M) (period : Duration) (settings : PoolSettings)
    (phase : PoolPhase) (record : M) : Preserves (accept around settings phase record)
      fun served => served.others.FollowsClock period := by
  refine ((line_respects around period).poolProduce settings phase record).bind fun answer => ?_
  split
  · exact Preserves.bind (fun _ hserved => ⟨hserved.period, hserved.last⟩) fun _ => .pure _
  · exact .pure _

theorem next {served : ServedQueue (TimedIntake τ M) M} (h : served.others.FollowsClock period)
    (step : IntakeStep τ M) : (next around served step).others.FollowsClock period := by
  cases step with
  | accept settings phase record => exact accept around period settings phase record served h
  | drain runner channel batchSize batches =>
    exact (line_respects around period).drainBatches runner channel batchSize batches served h
  | idle => exact h.call .idle
  | flush => exact flush around period served.others h
  | outside change => exact ⟨h.period, h.last⟩
  | bind owners =>
    obtain ⟨_, hbound⟩ :=
      ServedQueue.bind_run (consumer around) served served.queue.channels.length owners
    simp only [TimedIntake.next, hbound]
    exact h
  | stop settings =>
    exact (Pool.respected_of_line (line_respects around period)
      (fun served => flush around period served.others) settings _).stop served h

theorem after (served : ServedQueue (TimedIntake τ M) M) (h : served.others.FollowsClock period)
    (steps : List (IntakeStep τ M)) : (after around steps served).others.FollowsClock period := by
  induction steps generalizing served with
  | nil => exact h
  | cons step rest ih => exact ih _ (h.next step)

end FollowsClock

variable {period : Duration} {around : ClockedOutlet τ M} {timed : TimedIntake τ M}

/-! ## Flushes -/

/-- A call gives the whole buffer out, its own batch and all, and the next worker takes it in. -/
structure GivesOut (around : ClockedOutlet τ M) (timed : TimedIntake τ M) (call : Call M) : Prop where
  forwarded : (call.run around timed).intake.forwarded =
    timed.intake.forwarded ++ (timed.intake.stage.buffer.acceptAll call.batch).toList
  served : (call.run around timed).intake.others =
    (((timed.intake.stage.buffer.acceptAll call.batch).toList.forM around.next).run
      timed.intake.others).2
  emptied : (call.run around timed).intake.stage.buffer = .empty
  noted : (call.run around timed).last = timed.clock around

/-- A flush is made when the wall clock shows that the period has passed since the last, and only
then. -/
structure Prompt (around : ClockedOutlet τ M) (period : Duration) (timed : TimedIntake τ M) : Prop where
  due : Clock.ShowsPassed period timed.last (timed.clock around) →
    ∀ call : Call M, GivesOut around timed call
  /-- Before that, a batch is merged and nothing else is done. -/
  waits : ¬ Clock.ShowsPassed period timed.last (timed.clock around) →
    ∀ call : Call M, call.run around timed = { timed with intake := call.merged timed }
  /-- If the wall time kept up, no flush is later than the instant says. -/
  inTime : timed.last.KeepsUp (timed.clock around) →
    timed.last.elapsed + period.nanos ≤ (timed.clock around).elapsed →
    0 ≤ timed.last.wall → (timed.clock around).wall / 1000000 ≤ Timestamp.greatest →
    ∀ call : Call M, GivesOut around timed call

theorem FollowsClock.prompt (h : timed.FollowsClock period) : Prompt around period timed := by
  have hdue : Clock.ShowsPassed period timed.last (timed.clock around) →
      ∀ call : Call M, GivesOut around timed call := by
    intro hpassed call
    have hrun := call.run_of_due (h.isDue_iff.mpr hpassed)
    exact ⟨congrArg (·.intake.forwarded) hrun, congrArg (·.intake.others) hrun,
      congrArg (·.intake.stage.buffer) hrun, congrArg (·.last) hrun⟩
  refine ⟨hdue, fun hpassed call => call.run_of_not_due fun h' => hpassed (h.isDue_iff.mp h'), ?_⟩
  intro hkeeps hpassed hepoch hrange
  exact hdue (hkeeps.showsPassed hpassed hepoch hrange)

/-- Whatever happened before, a first aggregation goes by the wall clock and by nothing else. -/
theorem flushes_follow_the_wall_clock (around : ClockedOutlet τ M) (queue : Queue M) (model : Model)
    (period : Duration) (others : τ) (steps : List (IntakeStep τ M)) :
    Prompt around period
      (after around steps { queue, others := start around model period others }).others :=
  (FollowsClock.after { queue, others := start around model period others } ⟨rfl, rfl⟩ steps).prompt

/-- The clock is set forward two seconds and back one, which is still no later than it was. -/
theorem flushes_follow_the_wall_clock_set_to_and_fro :
    let record := SumRecord.new (.onFirstDay (.single "checkout")) 5
    let around : ClockedOutlet Clock SumRecord := ⟨fun clock => clock, fun _ => pure ()⟩
    let model : Model := { name := "calls", level := .day }
    let settings : QueueSettings SumRecord := { name := "calls_day_l1", channelSize := 2 }
    let steps : List (IntakeStep Clock SumRecord) := [.accept {} .idle record,
      .drain (.thread 0) 0 1000 1, .outside (·.setMillis 3000), .outside (·.setMillis 2000),
      .outside fun clock => (clock.advance FirstLevel.standardPeriod).toOption.getD clock]
    ∃ queue, Queue.build settings = .ok queue ∧
      let timed := (after around steps
        { queue, others := start around model FirstLevel.standardPeriod (.ofMillis 1000) }).others
      timed.intake.forwarded = [] ∧
      ∀ call : Call SumRecord, (call.run around timed).intake.forwarded =
        (timed.intake.stage.buffer.acceptAll call.batch).toList := by
  intro record around model settings steps
  refine ⟨_, rfl, ?_⟩
  intro timed
  have hforwarded : timed.intake.forwarded = [] := by decide +kernel
  refine ⟨hforwarded, fun call => ?_⟩
  have hprompt : Prompt around FirstLevel.standardPeriod timed :=
    flushes_follow_the_wall_clock around _ model FirstLevel.standardPeriod (.ofMillis 1000) steps
  have hgives := hprompt.inTime (by decide +kernel) (by decide +kernel) (by decide +kernel)
    (by decide +kernel) call
  rw [hgives.forwarded, hforwarded, List.nil_append]

/-- The clock is set back one second. When the period has passed, the record still waits. -/
theorem a_flush_is_held_back :
    let record := SumRecord.new (.onFirstDay (.single "checkout")) 5
    let around : ClockedOutlet Clock SumRecord := ⟨fun clock => clock, fun _ => pure ()⟩
    let model : Model := { name := "calls", level := .day }
    let settings : QueueSettings SumRecord := { name := "calls_day_l1", channelSize := 2 }
    let steps : List (IntakeStep Clock SumRecord) := [.accept {} .idle record,
      .drain (.thread 0) 0 1000 1, .outside (·.setMillis 1000),
      .outside fun clock => (clock.advance FirstLevel.standardPeriod).toOption.getD clock]
    ∃ queue, Queue.build settings = .ok queue ∧
      let timed := (after around steps
        { queue, others := start around model FirstLevel.standardPeriod (.ofMillis 2000) }).others
      timed.last.elapsed + FirstLevel.standardPeriod.nanos ≤ (timed.clock around).elapsed ∧
      (Call.idle.run around timed).intake.forwarded = [] ∧
      (Call.idle.run around timed).intake.stage.buffer.toList = [record] := by
  intro record around model settings steps
  exact ⟨_, rfl, by decide +kernel, by decide +kernel, by decide +kernel⟩

end TimedIntake

end Rollup
