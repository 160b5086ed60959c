import Rollup.Proofs.Closing

/-!
# Queues in a chain

A front may hand its records on to a station that has a queue of its own, drained by the same pool. When
the pool shuts down, all queues are closed before the first of them is drained. So what the front still
has to hand on is handed back by the queue of the station, and is lost.
-/

namespace Rollup

variable {M : Type} [Record M]

def Persister.writer : Consumer (Persister M) M := ServedQueue.folding Persister.write

/-! ## The queue of a station -/

namespace ServedQueue

variable {persister : Persister M} {kept : List M} {channels : Nat}
  {served : ServedQueue (Persister M) M}

/-- Of the records that are kept, some were written and the others are queued. -/
structure Held (persister : Persister M) (kept : List M) (channels : Nat)
    (served : ServedQueue (Persister M) M) : Prop where
  ready : served.queue.Ready
  count : served.queue.channels.length = channels
  each : (served.handed ++ served.queue.waiting).Perm kept
  written : served.others = served.handed.foldl Persister.write persister

theorem Held.drain (runner : Runner) (channel batchSize : Nat) :
    Preserves ((line Persister.writer).drain runner channel batchSize) (Held persister kept channels) := by
  intro served h
  obtain ⟨taken, hdrains⟩ := Drains.drain Persister.writer runner channel batchSize served
  refine ⟨hdrains.rules.1.ready h.ready, hdrains.rules.1.length.trans h.count, ?_,
    (folding_respects _ _).drain runner channel batchSize served h.written⟩
  rw [hdrains.handed, List.append_assoc]
  exact (hdrains.waiting.append_left _).trans h.each

theorem Held.close (h : served.Held persister kept channels) :
    Held persister kept channels { served with queue := served.queue.close } :=
  ⟨⟨h.ready.capacity, h.ready.channels⟩, h.count, h.each, h.written⟩

/-- The queue takes nothing in any more, and this holds of it. -/
def Sealed (persister : Persister M) (kept : List M) (channels : Nat) (left : Queue M → Prop)
    (served : ServedQueue (Persister M) M) : Prop :=
  served.Held persister kept channels ∧ served.queue.closed = true ∧ left served.queue

/-- What holds of the queue goes on to hold when some of it is drained. -/
def Shrinks (left : Queue M → Prop) : Prop :=
  ∀ {τ : Type} {channel : Nat} {taken : List M} {before after : ServedQueue τ M},
    Drains channel taken before after → left before.queue → left after.queue

omit [Record M] in
theorem waiting_shrinks : Shrinks fun queue : Queue M => queue.waiting = [] := by
  intro _ _ _ _ _ hdrains hempty
  have hwaiting := hdrains.waiting
  rw [hempty] at hwaiting
  exact (List.append_eq_nil_iff.mp hwaiting.eq_nil).2

omit [Record M] in
theorem channel_shrinks (channel : Nat) : Shrinks fun queue : Queue M => queue.channel channel = [] :=
  fun hdrains => hdrains.channel_nil

theorem Sealed.keptClosed {left : Queue M → Prop} (hleft : Shrinks left) :
    KeptClosed Persister.writer (Sealed persister kept channels left) where
  closed _ h := h.2.1
  drain runner channel batchSize served h := by
    obtain ⟨_, hdrains⟩ := Drains.drain Persister.writer runner channel batchSize served
    refine ⟨Held.drain runner channel batchSize served h.1, ?_, hleft hdrains h.2.2⟩
    obtain ⟨_, _, _, _, hqueue⟩ := drain_sameSetup Persister.writer runner channel batchSize served
    rw [hqueue]
    exact h.2.1

end ServedQueue

namespace Engine

variable {index : Nat} {station : Station M} {holds : ServedQueue (Persister M) M → Prop}

/-- The persister and the queue of the station are those. The rest of it is as it was. -/
def Seen (index : Nat) (station : Station M) (served : ServedQueue (Persister M) M)
    (engine : Engine M) : Prop :=
  engine.stations[index]? = some { station with persister := served.others, queue := some served.queue }

def Houses (index : Nat) (station : Station M) (holds : ServedQueue (Persister M) M → Prop)
    (engine : Engine M) : Prop := ∃ served, holds served ∧ Seen index station served engine

omit [Record M] in
theorem Seen.modifyStation {served served' : ServedQueue (Persister M) M} {engine : Engine M}
    (h : Seen index station served engine) {change : Station M → Station M}
    (hchange : change { station with persister := served.others, queue := some served.queue } =
      { station with persister := served'.others, queue := some served'.queue }) :
    Seen index station served' (engine.modifyStation index change) := by
  unfold Seen Engine.modifyStation at *
  rw [List.getElem?_modify_eq, h]
  exact congrArg some hchange

theorem seen_mirrored : Line.Mirrored (Seen (M := M) index station) (ServedQueue.line Persister.writer)
    (stationLine index) where
  get {served engine} h := by
    show ((engine.stations[index]?).bind (·.queue)).getD .absent = _
    rw [h]
    rfl
  set h queue := h.modifyStation rfl
  consume runner batch _ _ h := ⟨rfl, h.modifyStation rfl⟩
  onError _ _ _ := .pure _

omit [Record M] in
theorem Houses.modifyStation {other : Nat} (hother : other ≠ index) (engine : Engine M)
    (change : Station M → Station M) (h : Houses index station holds engine) :
    Houses index station holds (engine.modifyStation other change) := by
  obtain ⟨served, hserved, hseen⟩ := h
  refine ⟨served, hserved, ?_⟩
  unfold Seen Engine.modifyStation at *
  rw [List.getElem?_modify_ne _ _ hother, hseen]

theorem close_houses
    (hclose : ∀ served, holds served → holds { served with queue := served.queue.close })
    (other : Nat) :
    Preserves ((stationQueue other).modify Queue.close) (Houses index station holds) := by
  by_cases hother : other = index
  · rw [hother]
    rintro engine ⟨served, hserved, hseen⟩
    exact ⟨_, hclose served hserved, (seen_mirrored.modifyQueue Queue.close served engine hseen).2⟩
  · exact fun engine h => Houses.modifyStation hother engine _ h

theorem stationLine_served (hkept : ServedQueue.KeptClosed Persister.writer holds) (other : Nat) :
    (stationLine other).Served (Houses index station holds) := by
  by_cases hother : other = index
  · rw [hother]
    refine ⟨?_, close_houses (fun _ => hkept.close) index, .pure _⟩
    rintro runner channel batchSize _ engine ⟨served, hserved, hseen⟩
    exact ⟨_, hkept.drain runner channel batchSize served hserved,
      (seen_mirrored.drain runner channel batchSize served engine hseen).2⟩
  · exact (stationLine_respects_of (Houses.modifyStation hother)).served (.pure _)

theorem acceptAt_houses (hkept : ServedQueue.KeptClosed Persister.writer holds) (other : Nat)
    (record : M) : Preserves (acceptAt other record) (Houses index station holds) := by
  by_cases hother : other = index
  · rintro engine ⟨served, hserved, hseen⟩
    -- The pool may drain a full channel first. The record is handed back all the same.
    obtain ⟨hrefused, hlast⟩ := hkept.poolProduce hserved engine.pool engine.phase record
    obtain ⟨hanswer, hseen'⟩ :=
      seen_mirrored.poolProduce engine.pool engine.phase record served engine hseen
    rw [hrefused] at hanswer
    have hrun : (Pool.produce engine.pool engine.phase (stationLine index) record).run engine =
      (.error ⟨.closed, record⟩, _) := Prod.ext hanswer rfl
    rw [hother, acceptAt, run_get_bind, hseen]
    show Houses index station holds
      ((Pool.produce engine.pool engine.phase (stationLine index) record >>= fun _ => _).run engine).2
    rw [run_bind_of_eq hrun]
    exact ⟨_, hlast, hseen'⟩
  · exact acceptAt_preserves_of (Houses.modifyStation hother) record

theorem houses_respected (hkept : ServedQueue.KeptClosed Persister.writer holds) (engine : Engine M)
    {settings : PoolSettings} (hbatch : 0 < settings.batchSize) :
    Pool.Respected settings (Pooled.attachments engine) (Houses index station holds) := by
  have hdeliver : ∀ target record, Preserves (deliver target record) (Houses index station holds) :=
    deliver_preserves_of (fun _ _ h => h) (acceptAt_houses hkept)
  refine respected (stationLine_served hkept) (fun other => ?_) (fun _ _ h => h) engine hbatch
  have hstage : ∀ engine change, Houses index station holds engine →
      Houses index station holds (modifyStage other change engine) := fun _ _ h => h
  exact (frontLine_respects_of hstage hdeliver fun _ _ h => h).served
    (giveOut_preserves_of hstage hdeliver FirstLevel.flush)

/-! ## The shutdown of a station -/

variable {persister : Persister M} {kept : List M} {channels : Nat} {engine : Engine M}
  {settings : PoolSettings}

theorem closes_held {attachment : Attachment (Engine M)} (h : attachment ∈ Pooled.attachments engine)
    (hclose : ∀ served, holds served → holds { served with queue := served.queue.close }) :
    Preserves attachment.close (Houses index station holds) := by
  rcases mem_attachments h with ⟨_, _, rfl⟩ | ⟨other, _, rfl⟩ | ⟨_, rfl⟩
  · exact fun _ h => h
  · exact close_houses hclose other
  · exact fun _ h => h

theorem houses_closed (hattached : (stationLine index).attachment channels ∈ Pooled.attachments engine)
    (h : Houses index station (ServedQueue.Held persister kept channels) engine) :
    Houses index station (ServedQueue.Sealed persister kept channels fun _ => True)
      (((Pooled.attachments engine).forM (·.close)).run engine).2 := by
  have hsealed : ∀ served : ServedQueue (Persister M) M,
      served.Sealed persister kept channels (fun _ => True) →
      ServedQueue.Sealed persister kept channels (fun _ => True)
        { served with queue := served.queue.close } :=
    fun _ h => ⟨h.1.close, rfl, trivial⟩
  refine (Preserves.forM_reaches (fun _ hmem => closes_held hmem fun _ h => h.close)
    (fun _ hmem s hs => ⟨closes_held hmem (fun _ h => h.close) s hs.1, closes_held hmem hsealed s hs.2⟩)
    hattached ?_ h).2
  rintro engine ⟨served, hserved, hseen⟩
  exact ⟨_, ⟨hserved.close, rfl, trivial⟩,
    (seen_mirrored.modifyQueue Queue.close served engine hseen).2⟩

theorem Houses.queue {left : Queue M → Prop} {engine : Engine M} :
    Houses index station (ServedQueue.Sealed persister kept channels left) engine ↔
      Houses index station (ServedQueue.Sealed persister kept channels fun _ => True) engine ∧
        left ((stationQueue index).get engine) := by
  constructor
  · rintro ⟨served, ⟨hheld, hclosed, hleft⟩, hseen⟩
    refine ⟨⟨served, ⟨hheld, hclosed, trivial⟩, hseen⟩, ?_⟩
    have hqueue : (stationQueue index).get engine = served.queue := seen_mirrored.get hseen
    rwa [hqueue]
  · rintro ⟨⟨served, ⟨hheld, hclosed, _⟩, hseen⟩, hleft⟩
    have hqueue : (stationQueue index).get engine = served.queue := seen_mirrored.get hseen
    exact ⟨served, ⟨hheld, hclosed, hqueue ▸ hleft⟩, hseen⟩

theorem houses_settled (hattached : (stationLine index).attachment channels ∈ Pooled.attachments engine)
    (hbatch : 0 < settings.batchSize) (hthreads : 0 < settings.threads) {closed : Engine M}
    (h : Houses index station (ServedQueue.Sealed persister kept channels fun _ => True) closed) :
    Houses index station (ServedQueue.Sealed persister kept channels fun queue => queue.waiting = [])
      ((Pool.settle settings (Pooled.attachments engine)).run closed).2 := by
  rw [Houses.queue]
  refine Pool.settle_empties_line ?_ (fun empty => ?_) hattached ?_ ?_ hthreads h
  · exact (houses_respected (ServedQueue.Sealed.keptClosed fun _ h => h) engine hbatch).drain
  · have hrespected : Pool.Respected settings (Pooled.attachments engine) (Houses index station
        (ServedQueue.Sealed persister kept channels fun queue => queue.channel empty = [])) :=
      houses_respected (ServedQueue.Sealed.keptClosed (ServedQueue.channel_shrinks empty)) engine hbatch
    intro attachment hmem thread channel last h
    exact Houses.queue.mp
      (hrespected.drain attachment hmem thread channel last (Houses.queue.mpr h))
  · rintro engine ⟨served, hserved, hseen⟩
    have hqueue : (stationQueue index).get engine = served.queue := seen_mirrored.get hseen
    show ((stationQueue index).get engine).channels.length = channels
    rw [hqueue]
    exact hserved.1.count
  · rintro runner channel engine ⟨served, hserved, hseen⟩
    have hdrained := (seen_mirrored.drain runner channel settings.batchSize served engine hseen).2
    have hqueue := (seen_mirrored (M := M)).get hdrained
    rw [hqueue]
    exact ServedQueue.drain_empties (fun _ _ _ => rfl) hserved.1.ready runner channel hbatch

theorem stop_houses (hattached : (stationLine index).attachment channels ∈ Pooled.attachments engine)
    (hbatch : 0 < settings.batchSize) (hthreads : 0 < settings.threads)
    (h : Houses index station (ServedQueue.Held persister kept channels) engine) :
    Houses index station (ServedQueue.Sealed persister kept channels fun queue => queue.waiting = [])
      ((Pool.stop settings (Pooled.attachments engine)).run engine).2 := by
  have hsettled := houses_settled hattached hbatch hthreads (houses_closed hattached h)
  exact Preserves.forM
    (houses_respected (ServedQueue.Sealed.keptClosed ServedQueue.waiting_shrinks) engine hbatch).exit
    _ hsettled

/-! ## The shutdown of a front -/

def Fronts (index : Nat) (holds : Queue M → Prop) (engine : Engine M) : Prop :=
  ∃ front, engine.fronts[index]? = some front ∧ holds front.queue

variable {left : Queue M → Prop}

theorem frontLine_get {front : Front M} (hfront : engine.fronts[index]? = some front) :
    (frontLine index).queue.get engine = front.queue := by
  show ((engine.fronts[index]?).map (·.queue)).getD .absent = front.queue
  rw [hfront]
  rfl

theorem fronts_deliver (target : Target) (record : M) :
    Preserves (deliver target record) (Fronts index left) := by
  intro engine h
  unfold Fronts
  rw [deliver_fronts]
  exact h

theorem fronts_giveOut (other : Nat) (flush : FirstLevel M → List M × FirstLevel M) :
    Preserves (giveOut other flush) (Fronts index left) := by
  rintro engine ⟨front, hfront, hleft⟩
  unfold Fronts
  rw [giveOut_fronts, List.getElem?_modify, hfront]
  split
  · exact ⟨_, rfl, hleft⟩
  · exact ⟨_, rfl, hleft⟩

theorem frontLine_drained {front : Front M} (hfront : engine.fronts[index]? = some front)
    (runner : Runner) (channel batchSize : Nat) :
    ∃ (taken : List M) (before after : ServedQueue (Intake (Engine M) M) M),
      before.queue = front.queue ∧
      ServedQueue.Drains channel taken before after ∧
      (front.queue.Ready → 0 < batchSize → after.queue.channel channel = []) ∧
      (((frontLine index).drain runner channel batchSize).run engine).2.fronts[index]? =
        some ⟨after.others.stage, after.queue, front.target⟩ := by
  let consumer := Intake.consumer (outlet (M := M) front.target)
  let before : ServedQueue (Intake (Engine M) M) M := ⟨front.queue, ⟨front.stage, engine, []⟩, []⟩
  obtain ⟨taken, hdrains⟩ := ServedQueue.Drains.drain consumer runner channel batchSize before
  have hempties : front.queue.Ready → 0 < batchSize →
      (((ServedQueue.line consumer).drain runner channel batchSize).run before).2.queue.channel
        channel = [] :=
    fun hready hbatch => ServedQueue.drain_empties (fun _ _ _ => rfl) hready runner channel hbatch
  have hlast :=
    (frontLine_mirrored.drain runner channel batchSize before engine (.start hfront)).2.front_eq
  exact ⟨taken, before, _, rfl, hdrains, hempties, hlast⟩

theorem frontLine_served (hshrinks : ServedQueue.Shrinks left)
    (hclose : ∀ queue, left queue → left queue.close) (other : Nat) :
    (frontLine (M := M) other).Served (Fronts index left) := by
  by_cases hother : other = index
  · rw [hother]
    refine ⟨?_, ?_, fronts_giveOut index FirstLevel.flush⟩
    · rintro runner channel batchSize _ engine ⟨front, hfront, hleft⟩
      obtain ⟨_, before, after, hbefore, hdrains, _, hlast⟩ :=
        frontLine_drained hfront runner channel batchSize
      rw [← hbefore] at hleft
      exact ⟨_, hlast, hshrinks hdrains hleft⟩
    · rintro engine ⟨front, hfront, hleft⟩
      refine ⟨{ front with queue := front.queue.close }, ?_, hclose _ hleft⟩
      show (engine.fronts.modify index _)[index]? = _
      rw [List.getElem?_modify_eq, hfront, frontLine_get hfront]
      rfl
  · have hmodify : ∀ (engine : Engine M) change, Fronts index left engine →
        Fronts index left (engine.modifyFront other change) := by
      rintro engine change ⟨front, hfront, hleft⟩
      exact ⟨front, by simpa [modifyFront, List.getElem?_modify_ne _ _ hother] using hfront, hleft⟩
    exact (frontLine_respects_of (fun engine _ => hmodify engine _) fronts_deliver
      fun engine _ => hmodify engine _).served (fronts_giveOut other FirstLevel.flush)

theorem fronts_respected (hshrinks : ServedQueue.Shrinks left)
    (hclose : ∀ queue, left queue → left queue.close) (hbatch : 0 < settings.batchSize) :
    Pool.Respected settings (Pooled.attachments engine) (Fronts index left) :=
  respected (fun _ => (stationLine_respects_of fun _ _ h => h).served (.pure _))
    (frontLine_served hshrinks hclose) (fun _ _ h => h) engine hbatch

def Usable (channels : Nat) (queue : Queue M) : Prop :=
  queue.Ready ∧ queue.channels.length = channels

omit [Record M] in
theorem usable_shrinks : ServedQueue.Shrinks (Usable (M := M) channels) :=
  fun hdrains h => ⟨hdrains.rules.1.ready h.1, hdrains.rules.1.length.trans h.2⟩

theorem Fronts.queue {holds : Queue M → Prop} :
    Fronts index (fun queue => holds queue ∧ left queue) engine ↔
      Fronts index holds engine ∧ left ((frontLine index).queue.get engine) := by
  constructor
  · rintro ⟨front, hfront, hholds, hleft⟩
    rw [frontLine_get hfront]
    exact ⟨⟨front, hfront, hholds⟩, hleft⟩
  · rintro ⟨⟨front, hfront, hholds⟩, hleft⟩
    rw [frontLine_get hfront] at hleft
    exact ⟨front, hfront, hholds, hleft⟩

theorem fronts_settled (hattached : (frontLine index).attachment channels ∈ Pooled.attachments engine)
    (hbatch : 0 < settings.batchSize) (hthreads : 0 < settings.threads) {closed : Engine M}
    (h : Fronts index (Usable channels) closed) :
    Fronts index (fun queue => Usable channels queue ∧ queue.waiting = [])
      ((Pool.settle settings (Pooled.attachments engine)).run closed).2 := by
  have husable : Pool.Respected settings (Pooled.attachments engine) (Fronts index (Usable channels)) :=
    fronts_respected usable_shrinks (fun _ h => ⟨⟨h.1.capacity, h.1.channels⟩, h.2⟩) hbatch
  rw [Fronts.queue]
  refine Pool.settle_empties_line husable.drain (fun empty => ?_) hattached ?_ ?_ hthreads h
  · have hrespected : Pool.Respected settings (Pooled.attachments engine)
        (Fronts index fun queue => Usable channels queue ∧ queue.channel empty = []) :=
      fronts_respected
        (fun hdrains h => ⟨usable_shrinks hdrains h.1, ServedQueue.channel_shrinks empty hdrains h.2⟩)
        (fun _ h => ⟨⟨⟨h.1.1.capacity, h.1.1.channels⟩, h.1.2⟩, h.2⟩) hbatch
    intro attachment hmem thread channel last h
    exact Fronts.queue.mp
      (hrespected.drain attachment hmem thread channel last (Fronts.queue.mpr h))
  · rintro last ⟨front, hfront, husable⟩
    rw [frontLine_get hfront]
    exact husable.2
  · rintro runner channel last ⟨front, hfront, husable⟩
    obtain ⟨_, _, _, _, _, hempty, hlast⟩ := frontLine_drained hfront runner channel settings.batchSize
    rw [frontLine_get hlast]
    exact hempty husable.1 hbatch

def Emptied (index : Nat) (engine : Engine M) : Prop :=
  ∃ front, engine.fronts[index]? = some front ∧ front.queue.waiting = [] ∧ front.stage.buffer = .empty

theorem flushFront_emptied (other : Nat) :
    Preserves (flushFront (M := M) other) (Emptied index) := by
  rintro engine ⟨front, hfront, hwaiting, hbuffer⟩
  unfold Emptied flushFront
  rw [giveOut_fronts, List.getElem?_modify, hfront]
  split
  · exact ⟨_, rfl, hwaiting, rfl⟩
  · exact ⟨_, rfl, hwaiting, hbuffer⟩

theorem flushFront_empties (h : Fronts index (fun queue => queue.waiting = []) engine) :
    Emptied index ((flushFront index).run engine).2 := by
  obtain ⟨front, hfront, hwaiting⟩ := h
  unfold Emptied flushFront
  rw [giveOut_fronts, List.getElem?_modify_eq, hfront]
  exact ⟨_, rfl, hwaiting, rfl⟩

theorem exits_empty (hattached : (frontLine index).attachment channels ∈ Pooled.attachments engine)
    (hbatch : 0 < settings.batchSize) {settled : Engine M}
    (h : Fronts index (fun queue => queue.waiting = []) settled) :
    Emptied index (((Pooled.attachments engine).forM (·.exit)).run settled).2 := by
  have hrespected : Pool.Respected settings (Pooled.attachments engine)
      (Fronts index fun queue => queue.waiting = []) :=
    fronts_respected ServedQueue.waiting_shrinks (fun _ h => h) hbatch
  have hemptied : ∀ attachment ∈ Pooled.attachments engine,
      Preserves attachment.exit (Emptied index) := by
    intro attachment hmem
    rcases mem_attachments hmem with ⟨other, _, rfl⟩ | ⟨_, _, rfl⟩ | ⟨_, rfl⟩
    · exact flushFront_emptied other
    · exact .pure _
    · exact fun _ h => h
  exact (Preserves.forM_reaches hrespected.exit
    (fun attachment hmem last h =>
      ⟨hrespected.exit attachment hmem last h.1, hemptied attachment hmem last h.2⟩)
    hattached (fun _ => flushFront_empties) h).2

theorem stop_empties_front (hattached : (frontLine index).attachment channels ∈ Pooled.attachments engine)
    (hbatch : 0 < settings.batchSize) (hthreads : 0 < settings.threads)
    (h : Fronts index (Usable channels) engine) :
    Emptied index ((Pool.stop settings (Pooled.attachments engine)).run engine).2 := by
  have husable : Pool.Respected settings (Pooled.attachments engine) (Fronts index (Usable channels)) :=
    fronts_respected usable_shrinks (fun _ h => ⟨⟨h.1.capacity, h.1.channels⟩, h.2⟩) hbatch
  obtain ⟨front, hfront, _, hwaiting⟩ :=
    fronts_settled hattached hbatch hthreads (Preserves.forM husable.close _ h)
  exact exits_empty hattached hbatch ⟨front, hfront, hwaiting⟩

/-! ## The shutdown of a chain -/

/-- What a front holds when the pool shuts down never reaches a station with a queue of its own: what is
written there is what was queued there, and nothing is left at the front. -/
theorem shutdown_cuts_chains_off {engine : Engine M} {source sink : Nat} {front : Front M}
    {station : Station M} {queue : Queue M} (hfront : engine.fronts[source]? = some front)
    (hstation : engine.stations[sink]? = some station) (hqueue : station.queue = some queue)
    (hready : front.queue.Ready ∧ queue.Ready)
    (hinlets : .front source ∈ engine.inlets ∧ .station sink ∈ engine.inlets)
    (hthreads : 0 < engine.pool.threads) (hbatch : 0 < engine.pool.batchSize) :
    let last := (Pooled.stop.run engine).2
    (∃ (written : List M) (queue' : Queue M), written.Perm queue.waiting ∧ queue'.waiting = [] ∧
      last.stations[sink]? = some { station with
        persister := written.foldl .write station.persister, queue := some queue' }) ∧
    ∃ front', last.fronts[source]? = some front' ∧ front'.queue.waiting = [] ∧
      front'.stage.buffer = .empty := by
  intro last
  have hsource : (frontLine source).attachment front.queue.channels.length ∈
      Pooled.attachments engine :=
    List.mem_filterMap.mpr ⟨_, hinlets.1, by simp [attachment?, hfront]⟩
  have hsink : (stationLine sink).attachment queue.channels.length ∈ Pooled.attachments engine :=
    List.mem_filterMap.mpr ⟨_, hinlets.2, by simp [attachment?, hstation, hqueue]⟩
  have hheld : Houses sink station
      (ServedQueue.Held station.persister queue.waiting queue.channels.length) engine := by
    refine ⟨⟨queue, station.persister, []⟩, ⟨hready.2, rfl, .refl _, rfl⟩, ?_⟩
    unfold Seen
    rw [hstation, ← hqueue]
  obtain ⟨served, ⟨hheld, _, hwaiting⟩, hseen⟩ := stop_houses hsink hbatch hthreads hheld
  refine ⟨⟨served.handed, served.queue, ?_, hwaiting, ?_⟩,
    stop_empties_front hsource hbatch hthreads ⟨front, hfront, hready.1, rfl⟩⟩
  · have heach := hheld.each
    rwa [hwaiting, List.append_nil] at heach
  · have hlast : last.stations[sink]? = _ := hseen
    rw [hlast, hheld.written]

/-- Five is at the front and seven is queued at the station. Seven is written, five is not. -/
theorem shutdown_cuts_chains_off_of_a_record :
    let model : Model := { name := "orders", level := .day }
    let record := SumRecord.new (.onFirstDay (.single "checkout"))
    let queue : List SumRecord → Queue SumRecord := fun items =>
      { Queue.absent with capacity := 10, channels := [items], owners := some [0] }
    let stage : FirstLevel SumRecord := .build model (.ofSecs 3600) 0
    let engine : Engine SumRecord :=
      { clock := .ofMillis 0
        stations := [{ persister := { model }, queue := some (queue [record 7]) }]
        fronts := [⟨stage.absorb [record 5], queue [], .station 0⟩]
        inlets := [.front 0, .station 0]
        phase := .running }
    let last := (Pooled.stop.run engine).2
    (last.stations[0]?).map (·.persister.toDrain) = some [record 7] ∧
      (last.fronts[0]?).map (·.stage.pending) = some 0 := by
  intro model record queue stage engine last
  have hready : (queue []).Ready ∧ (queue [record 7]).Ready :=
    ⟨⟨by decide, by decide⟩, ⟨by decide, by decide⟩⟩
  have hinlets : .front 0 ∈ engine.inlets ∧ .station 0 ∈ engine.inlets := by decide
  obtain ⟨⟨written, _, hwritten, _, hstation⟩, _, hfront, _, hbuffer⟩ :=
    shutdown_cuts_chains_off rfl rfl rfl hready hinlets Nat.one_pos (by decide : 0 < 1000)
  have hseven : written = [record 7] := List.perm_singleton.mp hwritten
  constructor
  · rw [hstation, hseven]
    rfl
  · rw [hfront, Option.map_some, FirstLevel.pending, hbuffer]
    rfl

/-- A record that was accepted is lost, wherever the front and the station are attached. -/
theorem shutdown_loses_an_accepted_record :
    let model : Model := { name := "orders", level := .day }
    let record := SumRecord.new (.onFirstDay (.single "checkout")) 5
    let stage : FirstLevel SumRecord := .build model (.ofSecs 3600) 0
    ∃ queue, Queue.build {} = .ok queue ∧
      ∀ inlets ∈ [[Inlet.front 0, .station 0], [.station 0, .front 0]],
        let engine : Engine SumRecord :=
          { clock := .ofMillis 0
            stations := [{ persister := { model }, queue := some queue }]
            fronts := [⟨stage, queue, .station 0⟩]
            inlets }
        let started := Pooled.start.run.run engine
        let accepted := (acceptFront 0 record).run started.2
        let last := (Pooled.stop.run accepted.2).2
        started.1 = .ok () ∧ accepted.1.isOk ∧
          (last.stations[0]?).map (·.persister.toDrain) = some [] ∧
          (last.fronts[0]?).map (·.stage.pending) = some 0 :=
  ⟨_, rfl, by decide +kernel⟩

end Engine

end Rollup
