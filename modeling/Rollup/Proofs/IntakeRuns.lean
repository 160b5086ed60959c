import Rollup.Proofs.Intakes
import Rollup.Proofs.Passes
import Rollup.Proofs.PoolFlow

/-!
# Runs of an intake

However a first aggregation is fed, drained, told to flush and shut down, nothing is lost on the way and
nothing is merged twice. For each identity, what was handed on, what is in the buffer and what is still
queued come to the same as what was taken in.
-/

namespace Rollup

open Record

variable {τ α M : Type}

/-! ## One channel -/

namespace ServedQueue

/-- The items taken in went through the only channel, or are in it. -/
structure InLine (accepted : List α) (served : ServedQueue τ α) : Prop where
  ready : served.queue.Ready
  one : served.queue.channels.length = 1
  waits : ∃ timeout, served.queue.overflow = .block timeout
  queued : accepted = served.handed ++ served.queue.channel 0

namespace InLine

variable {accepted : List α} {served : ServedQueue τ α} {consumer : Consumer τ α}

theorem waiting_eq (h : served.InLine accepted) : served.queue.waiting = served.queue.channel 0 := by
  obtain ⟨items, hitems⟩ := List.length_eq_one_iff.mp h.one
  simp [Queue.waiting, Queue.channel, hitems]

theorem drained (h : served.InLine accepted) {channel : Nat} {taken : List α}
    {served' : ServedQueue τ α} (hdrains : Drains channel taken served served') :
    served'.InLine accepted := by
  refine ⟨hdrains.rules.1.ready h.ready, hdrains.rules.1.length.trans h.one, ?_, ?_⟩
  · obtain ⟨timeout, htimeout⟩ := h.waits
    exact ⟨timeout, hdrains.rules.2.trans htimeout⟩
  · rw [h.queued, hdrains.handed, List.append_assoc]
    cases channel with
    | zero => rw [hdrains.own]
    | succ channel =>
      -- There is no second channel, so nothing was taken.
      have hbeyond : served.queue.channel (channel + 1) = [] :=
        Queue.channel_of_le (by rw [h.one]; omega)
      have hnone := hdrains.own
      rw [hbeyond, eq_comm, List.append_eq_nil_iff] at hnone
      rw [hnone.1, hdrains.others 0 (by omega), List.nil_append]

theorem drainBatches (h : served.InLine accepted) (runner : Runner) (channel batchSize batches : Nat) :
    (((line consumer).drainBatches runner channel batchSize batches).run served).2.InLine accepted := by
  obtain ⟨_, hdrains⟩ := Drains.drainBatches consumer runner channel batchSize batches served
  exact h.drained hdrains

theorem produce (h : served.InLine accepted) (item : α) :
    let last := ((line consumer).produce item).run served
    last.2.InLine (if last.1.isOk then accepted ++ [item] else accepted) := by
  obtain ⟨timeout, htimeout⟩ := h.waits
  have hzero : served.queue.target item = 0 := by
    have := Queue.target_lt h.ready item
    rw [h.one] at this
    omega
  intro last
  -- A producer that waits for room neither evicts an item nor runs one itself.
  rcases Queue.offer_cases h.ready item .timesOut with ⟨_, hoffer⟩ | ⟨_, _, hrule, _, hoffer⟩ |
    ⟨hrule, hoffer⟩ | ⟨_, _, _, hoffer⟩
  · have hlast : last = _ := produce_queued hoffer
    rw [hlast]
    have hrules := Queue.sameRules_refilled served.queue item
      (served.queue.channel (served.queue.target item) ++ [item])
    refine ⟨(hrules _).ready h.ready, (hrules _).length.trans h.one, ⟨timeout, htimeout⟩, ?_⟩
    have hchannel := Queue.channel_setChannel (Queue.target_lt h.ready item)
      (served.queue.channel (served.queue.target item) ++ [item]) 0
    rw [hzero, if_pos rfl] at hchannel
    show accepted ++ [item] = served.handed ++ (served.queue.setChannel (served.queue.target item)
      (served.queue.channel (served.queue.target item) ++ [item])).channel 0
    rw [hzero, hchannel, h.queued, List.append_assoc]
  · rw [htimeout] at hrule
    cases hrule
  · rw [htimeout] at hrule
    cases hrule
  · have hlast : last = _ := produce_refused hoffer
    rw [hlast]
    exact ⟨⟨h.ready.capacity, h.ready.channels⟩, h.one, ⟨timeout, htimeout⟩, h.queued⟩

theorem poolProduce (h : served.InLine accepted) (settings : PoolSettings) (phase : PoolPhase)
    (item : α) :
    let last := (Pool.produce settings phase (line consumer) item).run served
    last.2.InLine (if last.1.isOk then accepted ++ [item] else accepted) := by
  dsimp only
  rw [Pool.produce, run_get_bind]
  dsimp only
  split
  · obtain ⟨_, hdrains⟩ := Drains.drain consumer
      (.thread (served.queue.owner (served.queue.target item))) (served.queue.target item)
      settings.batchSize served
    exact (h.drained hdrains).produce item
  · exact h.produce item

end InLine

end ServedQueue

/-! ## Runs -/

/-- What may happen to an intake, one thing after another. -/
inductive IntakeStep (τ M : Type) where
  /-- A producer comes while a pool is in this phase. -/
  | accept (settings : PoolSettings) (phase : PoolPhase) (record : M)
  | drain (runner : Runner) (channel batchSize batches : Nat)
  | idle
  | flush
  /-- Something else happens: time passes, or the clock is set. -/
  | outside (change : τ → τ)
  /-- A pool is started, whose threads are to own the channels. -/
  | bind (owners : List Nat)
  | stop (settings : PoolSettings)

/-- An intake with its queue, and the records that it took in. -/
structure IntakeRun (τ M : Type) where
  served : ServedQueue (Intake τ M) M
  accepted : List M := []

namespace IntakeRun

def intake (run : IntakeRun τ M) : Intake τ M := run.served.others

def start (queue : Queue M) (stage : FirstLevel M) (others : τ) : IntakeRun τ M where
  served := { queue, others := { stage, others } }

variable [Record M]

def accept (outlet : Outlet τ M) (run : IntakeRun τ M) (settings : PoolSettings) (phase : PoolPhase)
    (record : M) : IntakeRun τ M :=
  let last := (Intake.accept outlet settings phase record).run run.served
  { served := last.2, accepted := if last.1.isOk then run.accepted ++ [record] else run.accepted }

def next (outlet : Outlet τ M) (run : IntakeRun τ M) : IntakeStep τ M → IntakeRun τ M
  | .accept settings phase record => run.accept outlet settings phase record
  | .drain runner channel batchSize batches =>
    let line := ServedQueue.line (Intake.consumer outlet)
    { run with served := ((line.drainBatches runner channel batchSize batches).run run.served).2 }
  | .idle =>
    { run with served := ((ServedQueue.line (Intake.consumer outlet)).consumer.idle.run run.served).2 }
  | .flush =>
    { run with served := ((ServedQueue.othersPart.run (Intake.flush outlet)).run run.served).2 }
  | .outside change =>
    { run with
      served := ((ServedQueue.othersPart.run (Intake.othersPart.modify change)).run run.served).2 }
  | .bind owners =>
    let pool := (ServedQueue.line (Intake.consumer outlet)).attachment run.served.queue.channels.length
    { run with served := ((pool.bind owners).run.run run.served).2 }
  | .stop settings =>
    let pool := (ServedQueue.line (Intake.consumer outlet)).attachment run.served.queue.channels.length
    { run with served := ((Pool.stop settings [pool]).run run.served).2 }

def after (outlet : Outlet τ M) (steps : List (IntakeStep τ M)) (run : IntakeRun τ M) :
    IntakeRun τ M := steps.foldl (next outlet) run

variable [Accumulating M]

structure Sound (run : IntakeRun τ M) : Prop where
  line : run.served.InLine run.accepted
  intake : run.intake.Sound run.served.handed run.accepted.length

theorem Sound.start {settings : QueueSettings M} {queue : Queue M}
    (hone : settings.channels = 1) {timeout : Duration} (hwaits : settings.overflow = .block timeout)
    (hqueue : Queue.build settings = .ok queue) (model : Model) (period : Duration) (now : Int)
    (others : τ) : Sound (IntakeRun.start queue (.build model period now) others) := by
  obtain ⟨_, hsize, rfl⟩ := Queue.build_eq_ok hqueue
  refine ⟨⟨⟨hsize, ?_⟩, ?_, ⟨timeout, hwaits⟩, ?_⟩, .start model period now others⟩
  all_goals simp [IntakeRun.start, hone, Queue.channel]

section

variable [LawfulRecord M] {outlet : Outlet τ M} {run : IntakeRun τ M}

theorem Sound.accept (h : run.Sound) (settings : PoolSettings) (phase : PoolPhase) (record : M) :
    (run.accept outlet settings phase record).Sound := by
  have hline :
      let last := (Pool.produce settings phase (ServedQueue.line (Intake.consumer outlet)) record).run
        run.served
      last.2.InLine (if last.1.isOk then run.accepted ++ [record] else run.accepted) :=
    h.line.poolProduce settings phase record
  have hintake := (Intake.line_respects outlet).poolProduce settings phase record run.served h.intake
  rcases hproduce : (Pool.produce settings phase (ServedQueue.line (Intake.consumer outlet)) record).run
    run.served with ⟨answer, served⟩
  rw [hproduce] at hline hintake
  unfold IntakeRun.accept Intake.accept
  rw [run_bind_of_eq hproduce]
  cases answer with
  | ok answer =>
    refine ⟨⟨hline.ready, hline.one, hline.waits, hline.queued⟩, hintake.keyed, ?_, hintake.merged⟩
    show served.others.stage.reported + (served.others.stage.accepted + 1) =
      (run.accepted ++ [record]).length
    rw [List.length_append, ← hintake.counted]
    rfl
  | error refused => exact ⟨hline, hintake⟩

theorem respected (outlet : Outlet τ M) (settings : PoolSettings) (accepted : List M) (channels : Nat) :
    Pool.Respected settings [(ServedQueue.line (Intake.consumer outlet)).attachment channels]
      fun served => Sound ⟨served, accepted⟩ where
  drain attachment hattachment thread channel served h := by
    obtain rfl := List.mem_singleton.mp hattachment
    exact ⟨h.line.drainBatches _ _ _ _, (Intake.line_respects outlet).drain _ _ _ served h.intake⟩
  close attachment hattachment served h := by
    obtain rfl := List.mem_singleton.mp hattachment
    exact ⟨⟨⟨h.line.ready.capacity, h.line.ready.channels⟩, h.line.one, h.line.waits, h.line.queued⟩,
      h.intake⟩
  exit attachment hattachment served h := by
    obtain rfl := List.mem_singleton.mp hattachment
    exact ⟨⟨h.line.ready, h.line.one, h.line.waits, h.line.queued⟩, h.intake.flush outlet⟩

theorem Sound.next (h : run.Sound) (step : IntakeStep τ M) : (run.next outlet step).Sound := by
  cases step with
  | accept settings phase record => exact h.accept settings phase record
  | drain runner channel batchSize batches =>
    exact ⟨h.line.drainBatches _ _ _ _,
      (Intake.line_respects outlet).drainBatches _ _ _ _ run.served h.intake⟩
  | idle => exact ⟨⟨h.line.ready, h.line.one, h.line.waits, h.line.queued⟩, h.intake.flushIfDue outlet⟩
  | flush => exact ⟨⟨h.line.ready, h.line.one, h.line.waits, h.line.queued⟩, h.intake.flush outlet⟩
  | outside change =>
    exact ⟨⟨h.line.ready, h.line.one, h.line.waits, h.line.queued⟩, h.intake.keyed, h.intake.counted,
      h.intake.merged⟩
  | bind owners =>
    obtain ⟨_, hbound⟩ := ServedQueue.bind_run (Intake.consumer outlet) run.served
      run.served.queue.channels.length owners
    simp only [IntakeRun.next, hbound]
    exact ⟨⟨⟨h.line.ready.capacity, h.line.ready.channels⟩, h.line.one, h.line.waits, h.line.queued⟩,
      h.intake⟩
  | stop settings => exact (respected outlet settings run.accepted _).stop run.served h

theorem Sound.after (h : run.Sound) (steps : List (IntakeStep τ M)) :
    (after outlet steps run).Sound := by
  induction steps generalizing run with
  | nil => exact h
  | cons step rest ih => exact ih (h.next step)

omit [LawfulRecord M] in
theorem Sound.stop_empties (h : run.Sound) {settings : PoolSettings} (hthreads : 0 < settings.threads)
    (hbatch : 0 < settings.batchSize) :
    (run.next outlet (.stop settings)).served.queue.waiting = [] ∧
      (run.next outlet (.stop settings)).intake.stage.buffer = .empty := by
  -- What is carried does not matter here: all of it has passed the queue.
  have hcarries : (ServedQueue.line (Intake.consumer outlet)).Carries fun _ _ _ => True := by
    refine ⟨fun _ _ => rfl, fun _ _ => trivial, fun _ _ => trivial, ?_⟩
    intros
    exact ⟨rfl, trivial, rfl⟩
  have hkeeps : (ServedQueue.line (Intake.consumer outlet)).Keeps (fun _ _ _ => True) []
      run.served.queue.waiting run.served :=
    ⟨h.line.ready, [], trivial, List.Perm.of_eq (List.append_nil _).symm⟩
  obtain ⟨settled, hrun, _, hempty⟩ := Pool.stop_empties hcarries hbatch
    run.served.queue.channels.length hkeeps hthreads rfl
  obtain ⟨last, others, hflush⟩ := Intake.flush_run outlet settled.others
  have hexit : ((ServedQueue.line (Intake.consumer outlet)).consumer.exit.run settled).2 =
      { settled with others := ((Intake.flush outlet).run settled.others).2 } := rfl
  unfold IntakeRun.intake IntakeRun.next
  simp only [hrun, hexit, hflush]
  exact ⟨hempty, rfl⟩

end

/-! ## Conservation -/

/-- What is kept up between any two steps. -/
structure Conserving (outlet : Outlet τ M) (mixable : M → M → Prop) (run : IntakeRun τ M) : Prop where
  folds : ∀ id, (about id run.accepted).Pairwise mixable →
    HeldAlike (foldOf id (run.intake.forwarded ++ run.intake.stage.buffer.toList ++
      run.served.queue.waiting)) (foldOf id run.accepted)
  counted : run.intake.stage.reported + run.intake.stage.accepted = run.accepted.length
  flush : run.intake.Flushes ((Intake.flush outlet).run run.intake).2
  /-- The buffer is given out as a whole or not at all. -/
  idle : ((Intake.consumer outlet).idle.run run.intake).2 = run.intake ∨
    run.intake.Flushes ((Intake.consumer outlet).idle.run run.intake).2
  consume : ∀ runner batch, ((Intake.consumer outlet).consume runner batch).run run.intake =
      (([], none), { run.intake with stage := run.intake.stage.absorb batch }) ∨
    run.intake.Flushes (((Intake.consumer outlet).consume runner batch).run run.intake).2
  /-- A pool that shuts down leaves nothing behind. -/
  stop : ∀ settings : PoolSettings, 0 < settings.threads → 0 < settings.batchSize →
    (run.next outlet (.stop settings)).served.queue.waiting = [] ∧
    (run.next outlet (.stop settings)).intake.stage.buffer = .empty

/-- Any first aggregation behind a queue of one channel whose producers wait for room, whatever comes
after it. -/
def Conserves (M : Type) [Record M] [Accumulating M] (mixable : M → M → Prop) : Prop :=
  ∀ (τ : Type) (outlet : Outlet τ M) (settings : QueueSettings M) (timeout : Duration)
    (queue : Queue M) (model : Model) (period : Duration) (now : Int) (others : τ)
    (steps : List (IntakeStep τ M)),
    settings.channels = 1 → settings.overflow = .block timeout → Queue.build settings = .ok queue →
    Conserving outlet mixable (after outlet steps (start queue (.build model period now) others))

section

variable [LawfulRecord M] {outlet : Outlet τ M} {run : IntakeRun τ M} {mixable : M → M → Prop}

theorem Sound.folds (h : run.Sound) {id : MetricId} {scale : UInt64}
    (hscale : ∀ record ∈ about id run.accepted, Accumulating.scale record = scale) :
    HeldAlike (foldOf id (run.intake.forwarded ++ run.intake.stage.buffer.toList ++
      run.served.queue.waiting)) (foldOf id run.accepted) := by
  rw [h.line.waiting_eq, foldOf_append]
  conv_rhs => rw [h.line.queued, foldOf_append]
  have hhanded : ∀ record ∈ about id run.served.handed, Accumulating.scale record = scale := by
    intro record hrecord
    apply hscale
    rw [h.line.queued, about_append]
    exact List.mem_append_left _ hrecord
  exact (h.intake.folds hhanded).joinedAll _

theorem Sound.conserving (h : run.Sound)
    (hscale : ∀ a b, mixable a b → Accumulating.scale a = Accumulating.scale b) :
    Conserving outlet mixable run where
  folds id hmixable := by
    obtain ⟨scale, hscale⟩ := exists_scale hmixable hscale
    exact h.folds hscale
  counted := h.intake.counted
  flush := by
    obtain ⟨last, others, hrun⟩ := Intake.flush_run outlet run.intake
    rw [hrun]
    exact h.intake.flushes last others
  idle := by
    rcases Intake.flushIfDue_run outlet run.intake with hrun | ⟨last, others, hrun⟩
    · exact .inl (congrArg Prod.snd hrun)
    · right
      show run.intake.Flushes ((Intake.flushIfDue outlet).run run.intake).2
      rw [hrun]
      exact h.intake.flushes last others
  consume runner batch := by
    have habsorbed := h.intake.absorb batch
    have hconsume : ((Intake.consumer outlet).consume runner batch).run run.intake = (([], none),
        ((Intake.flushIfDue outlet).run
          { run.intake with stage := run.intake.stage.absorb batch }).2) := rfl
    rw [hconsume]
    rcases Intake.flushIfDue_run outlet { run.intake with stage := run.intake.stage.absorb batch } with
      hrun | ⟨last, others, hrun⟩
    · left
      rw [hrun]
    · right
      rw [hrun]
      exact ⟨(habsorbed.flushes last others).forwards, rfl⟩
  stop settings hthreads hbatch := h.stop_empties hthreads hbatch

theorem conserves (hscale : ∀ a b, mixable a b → Accumulating.scale a = Accumulating.scale b) :
    Conserves M mixable := by
  intro τ outlet settings timeout queue model period now others steps hone hwaits hqueue
  exact ((Sound.start hone hwaits hqueue model period now others).after steps).conserving hscale

end

/-- A first aggregation neither loses a record nor merges it twice. Percentiles have to be of one
precision. -/
theorem first_level_conserves :
    Conserves SumRecord (fun _ _ => True) ∧
    Conserves RateRecord (fun _ _ => True) ∧
    Conserves AverageRecord (fun _ _ => True) ∧
    Conserves PeakRecord (fun _ _ => True) ∧
    Conserves PercentileRecord (fun a b => a.precision.value = b.precision.value) ∧
    Conserves LatestRecord (fun _ _ => True) :=
  ⟨conserves fun _ _ _ => rfl, conserves fun _ _ _ => rfl, conserves fun _ _ _ => rfl,
    conserves fun _ _ _ => rfl, conserves fun _ _ h => h, conserves fun _ _ _ => rfl⟩

/-- Of three averages two are handed on by a batch that finds the flush due, and the last one waits. -/
theorem first_level_conserves_averages :
    let id := MetricId.onFirstDay (.single "checkout")
    let record := fun value : Int64 => AverageRecord.new id value
    let outlet : Outlet Int AverageRecord := ⟨fun clock => clock, fun _ => pure ()⟩
    let settings : QueueSettings AverageRecord := { name := "calls_day_l1", channelSize := 2 }
    let model : Model := { name := "calls", level := .day }
    let pool : PoolSettings := {}
    let steps : List (IntakeStep Int AverageRecord) := [.accept pool .idle (record 6),
      .accept pool .idle (record 9), .accept pool .idle (record 1), .outside (· + 500),
      .drain (.thread 0) 0 2 1, .accept pool .running (record 3)]
    ∃ queue, Queue.build settings = .ok queue ∧
      let run := after outlet steps (start queue (.build model FirstLevel.standardPeriod 0) 0)
      HeldAlike (foldOf id (run.intake.forwarded ++ run.intake.stage.buffer.toList ++
        run.served.queue.waiting)) (foldOf id [record 6, record 9, record 3]) ∧
      run.intake.forwarded = [AverageRecord.withCount id 15 2] ∧
      run.served.queue.waiting = [record 3] ∧ run.intake.stage.reported = 2 := by
  intro id record outlet settings model pool steps
  refine ⟨_, rfl, ?_⟩
  intro run
  have hrun : Conserving outlet (fun _ _ => True) run :=
    first_level_conserves.2.2.1 Int outlet settings (.ofSecs 1) _ model FirstLevel.standardPeriod 0 0
      steps rfl rfl rfl
  have haccepted : run.accepted = [record 6, record 9, record 3] := by decide +kernel
  rw [← haccepted]
  exact ⟨hrun.folds id (List.pairwise_of_forall fun _ _ => trivial), by decide +kernel,
    by decide +kernel, by decide +kernel⟩

end IntakeRun

end Rollup
