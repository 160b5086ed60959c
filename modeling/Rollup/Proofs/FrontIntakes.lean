import Rollup.Proofs.Intakes
import Rollup.Proofs.Mirrors

/-!
# Fronts are intakes

A front of an engine is an intake whose records go to its target: what happens to the one happens to the
other, call by call.
-/

namespace Rollup

variable {M : Type}

namespace Engine

variable [Record M]

/-! ## Handing on -/

theorem deliver_fronts (target : Target) (record : M) (engine : Engine M) :
    ((deliver target record).run engine).2.fronts = engine.fronts := by
  have hkeeps : Preserves (deliver target record) fun last => last.fronts = engine.fronts :=
    deliver_preserves_of (fun _ _ h => h) (fun _ _ => acceptAt_preserves_of (fun _ _ h => h) _) _ _
  exact hkeeps engine rfl

section

variable {holds : Engine M → Engine M → Prop}
  (hsame : ∀ {a b}, holds a b → b.stations = a.stations ∧ b.pool = a.pool ∧ b.phase = a.phase)
  (hmodify : ∀ {a b}, holds a b → ∀ index change,
    holds (a.modifyStation index change) (b.modifyStation index change))

include hsame hmodify

theorem stationLine_mirrored (index : Nat) :
    Line.Mirrored holds (stationLine index) (stationLine index) where
  get {a b} h := by
    show ((b.stations[index]?).bind (·.queue)).getD .absent = _
    rw [(hsame h).1]
    rfl
  set h queue := hmodify h index _
  consume _ _ := (Mirrors.modify fun _ _ h => hmodify h index _).bind fun _ => .pure _
  onError _ _ _ := .pure _

theorem acceptAt_mirrors (index : Nat) (record : M) :
    Mirrors holds (acceptAt index record) (acceptAt index record) := by
  apply Mirrors.get_bind
  intro a b h
  obtain ⟨hstations, hpool, hphase⟩ := hsame h
  rw [hstations, hpool, hphase]
  cases a.stations[index]? with
  | none => exact .pure _
  | some station =>
    dsimp only
    have hcount : Mirrors holds (modify (modifyPersister (M := M) index (·.countAccepted)))
        (modify (modifyPersister index (·.countAccepted))) :=
      .modify fun _ _ h => hmodify h index _
    split
    · exact ((stationLine_mirrored hsame hmodify index).poolProduce _ _ _).bind hcount.onOk
    · exact (Mirrors.modify fun _ _ h => hmodify h index _).bind fun _ =>
        (Mirrors.pure _).bind hcount.onOk

theorem deliver_mirrors (hsinks : ∀ {a b}, holds a b → ∀ change : List (List M) → List (List M),
      holds { a with sinks := change a.sinks } { b with sinks := change b.sinks })
    (target : Target) (record : M) : Mirrors holds (deliver target record) (deliver target record) := by
  cases target with
  | nowhere => exact .pure _
  | sink index => exact .modify fun _ _ h => hsinks h _
  | station index => exact (acceptAt_mirrors hsame hmodify index record).bind fun _ => .pure _
  | copies sampler =>
    exact .forM fun copy _ => (acceptAt_mirrors hsame hmodify copy.1 copy.2).bind fun _ => .pure _

end

theorem deliver_modifyFront (target : Target) (record : M) (index : Nat) (change : Front M → Front M)
    (engine : Engine M) : ((deliver target record).run (engine.modifyFront index change)).2 =
      ((deliver target record).run engine).2.modifyFront index change := by
  have hmirrors : Mirrors (fun a b => b = a.modifyFront index change) (deliver target record)
      (deliver target record) :=
    deliver_mirrors (by rintro _ _ rfl; exact ⟨rfl, rfl, rfl⟩) (by rintro _ _ rfl _ _; rfl)
      (by rintro _ _ rfl _; rfl) target record
  exact (hmirrors engine _ rfl).2

/-! ## Intakes in engines -/

/-- What comes after the front: the engine around it. -/
def outlet (target : Target) : Outlet (Engine M) M := ⟨(·.clock.nowMillis), deliver target⟩

/-- The engine is the one around the intake, with the intake and its queue for a front. -/
def Fronted (index : Nat) (target : Target) (queue : Queue M) (intake : Intake (Engine M) M)
    (engine : Engine M) : Prop :=
  ∃ front, intake.others.fronts[index]? = some front ∧ front.target = target ∧
    engine = intake.others.modifyFront index ({ · with stage := intake.stage, queue })

variable {index : Nat} {target : Target} {queue : Queue M}

omit [Record M] in
theorem Fronted.front_eq {intake : Intake (Engine M) M} {engine : Engine M}
    (h : Fronted index target queue intake engine) :
    engine.fronts[index]? = some ⟨intake.stage, queue, target⟩ := by
  obtain ⟨⟨stage, _, _⟩, hfront, rfl, rfl⟩ := h
  simp [modifyFront, hfront]

omit [Record M] in
theorem Fronted.modifyStage {intake : Intake (Engine M) M} {engine : Engine M}
    (h : Fronted index target queue intake engine) (change : FirstLevel M → FirstLevel M) :
    Fronted index target queue { intake with stage := change intake.stage }
      (Engine.modifyStage index change engine) := by
  obtain ⟨front, hfront, htarget, rfl⟩ := h
  refine ⟨front, hfront, htarget, ?_⟩
  simp only [Engine.modifyStage, Engine.modifyFront, List.modify_modify_eq]
  rfl

omit [Record M] in
theorem Fronted.setQueue {intake : Intake (Engine M) M} {engine : Engine M}
    (h : Fronted index target queue intake engine) (queue' : Queue M) :
    Fronted index target queue' intake ((frontQueue index).set engine queue') := by
  obtain ⟨front, hfront, htarget, rfl⟩ := h
  refine ⟨front, hfront, htarget, ?_⟩
  simp only [frontQueue, Engine.modifyFront, List.modify_modify_eq]
  rfl

theorem forward_mirrors (record : M) : Mirrors (Fronted index target queue)
    (Intake.forward (outlet target) record) (deliver target record) := by
  rintro intake _ ⟨front, hfront, htarget, rfl⟩
  refine ⟨rfl, front, ?_, htarget, ?_⟩
  · show ((deliver target record).run intake.others).2.fronts[index]? = some front
    rw [deliver_fronts, hfront]
  · rw [deliver_modifyFront]
    rfl

theorem giveOut_mirrors (flush : FirstLevel M → List M × FirstLevel M) :
    Mirrors (Fronted index target queue) (Intake.giveOut (outlet target) flush)
      (Engine.giveOut index flush) := by
  apply Mirrors.get_bind
  intro intake engine h
  rw [h.front_eq]
  refine Mirrors.bind (.modify fun _ _ h' => ?_) fun _ => .forM fun record _ => forward_mirrors record
  exact h'.modifyStage fun _ => (flush intake.stage).2

theorem flushIfDue_mirrors : Mirrors (Fronted index target queue) (Intake.flushIfDue (outlet target))
    (flushFrontIfDue index) := by
  apply Mirrors.get_bind
  rintro intake _ ⟨_, _, _, rfl⟩
  exact giveOut_mirrors _

theorem consume_mirrors (runner : Runner) (batch : List M) : Mirrors (Fronted index target queue)
    ((Intake.consumer (outlet target)).consume runner batch)
    ((frontLine index).consumer.consume runner batch) :=
  (Mirrors.modify fun _ _ h => h.modifyStage (·.absorb batch)).bind fun _ =>
    flushIfDue_mirrors.bind fun _ => .pure _

/-- A queue whose consumer is an intake, and the engine with that front. -/
def Shown (index : Nat) (target : Target) (served : ServedQueue (Intake (Engine M) M) M)
    (engine : Engine M) : Prop := Fronted index target served.queue served.others engine

omit [Record M] in
theorem Shown.start {front : Front M} {engine : Engine M} (hfront : engine.fronts[index]? = some front) :
    Shown index front.target ⟨front.queue, ⟨front.stage, engine, []⟩, []⟩ engine := by
  refine ⟨front, hfront, rfl, ?_⟩
  show engine = engine.modifyFront index ({ · with stage := front.stage, queue := front.queue })
  have hsame : engine.fronts.modify index ({ · with stage := front.stage, queue := front.queue }) =
      engine.fronts.modify index id := modify_congr hfront rfl
  rw [modifyFront, hsame, List.modify_id]

theorem frontLine_mirrored : Line.Mirrored (Shown index target)
    (ServedQueue.line (Intake.consumer (outlet (M := M) target))) (frontLine index) where
  get {served engine} h := by
    show ((engine.fronts[index]?).map (·.queue)).getD .absent = served.queue
    rw [h.front_eq]
    rfl
  set h queue := h.setQueue queue
  consume runner batch served engine h := consume_mirrors runner batch served.others engine h
  onError _ _ _ := .pure _

end Engine

end Rollup
