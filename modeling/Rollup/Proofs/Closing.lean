import Rollup.Proofs.FrontIntakes
import Rollup.Proofs.KeyOrder
import Rollup.Proofs.Passes

/-!
# Closed queues

A pool that shuts down closes all its queues before it drains any of them. From then on a queue gets
nothing more: what it holds goes through its consumer, and what is offered to it is handed back.
-/

namespace Rollup

variable {σ τ α : Type}

theorem Preserves.forM_reaches {items : List α} {call : α → StateM σ PUnit} {holds reached : σ → Prop}
    (hkeeps : ∀ item ∈ items, Preserves (call item) holds)
    (hstays : ∀ item ∈ items, Preserves (call item) fun s => holds s ∧ reached s) {item : α}
    (hitem : item ∈ items) (hreach : ∀ s, holds s → reached ((call item).run s).2) {s : σ} (hs : holds s) :
    holds ((items.forM call).run s).2 ∧ reached ((items.forM call).run s).2 := by
  induction items generalizing s with
  | nil => cases hitem
  | cons first rest ih =>
    have hfirst := hkeeps first List.mem_cons_self s hs
    have hrest := fun other hother => hstays other (List.mem_cons_of_mem first hother)
    rcases List.mem_cons.mp hitem with rfl | hitem
    · exact Preserves.forM hrest _ ⟨hfirst, hreach s hs⟩
    · exact ih (fun other hother => hkeeps other (List.mem_cons_of_mem _ hother)) hrest hitem hfirst

/-! ## Lines that a pool serves -/

/-- Nothing that a pool does to a line disturbs what holds. -/
structure Line.Served (line : Line σ α) (holds : σ → Prop) : Prop where
  drain : ∀ runner channel batchSize, 0 < batchSize →
    Preserves (line.drain runner channel batchSize) holds
  close : Preserves (line.queue.modify Queue.close) holds
  exit : Preserves line.consumer.exit holds

theorem Line.Respects.served {line : Line σ α} {holds : σ → Prop} (h : line.Respects holds)
    (hexit : Preserves line.consumer.exit holds) : line.Served holds where
  drain runner channel batchSize _ := h.drain runner channel batchSize
  close := .partModify h.queue
  exit := hexit

/-- A line is emptied by a pool that settles, if all that is attached leaves an empty channel empty. -/
theorem Pool.settle_empties_line {settings : PoolSettings} {attachments : List (Attachment σ)}
    {line : Line σ α} {holds : σ → Prop} {channels : Nat}
    (hkeeps : ∀ attachment ∈ attachments, ∀ thread channel,
      Preserves (attachment.drain (.thread thread) channel settings.batchSize) holds)
    (hstays : ∀ empty, ∀ attachment ∈ attachments, ∀ thread channel,
      Preserves (attachment.drain (.thread thread) channel settings.batchSize)
        fun s => holds s ∧ (line.queue.get s).channel empty = [])
    (hline : line.attachment channels ∈ attachments)
    (hcount : ∀ s, holds s → (line.queue.get s).channels.length = channels)
    (hdrain : ∀ runner channel s, holds s →
      (line.queue.get ((line.drain runner channel settings.batchSize).run s).2).channel channel = [])
    (hthreads : 0 < settings.threads) {s : σ} (hs : holds s) :
    holds ((settle settings attachments).run s).2 ∧
      (line.queue.get ((settle settings attachments).run s).2).waiting = [] := by
  have hlast := settle_preserves hkeeps s hs
  obtain ⟨index, hindex⟩ := List.getElem?_of_mem hline
  -- An empty channel stays empty, so it is enough that each is drained once.
  refine ⟨hlast, List.flatten_eq_nil_iff.mpr fun items hitems => ?_⟩
  obtain ⟨channel, hchannel, rfl⟩ := List.mem_iff_getElem.mp hitems
  have hlt : channel < channels := by rwa [hcount _ hlast] at hchannel
  have hempty := (settle_reaches hkeeps (hstays channel) hindex
    (fun thread s hs => hdrain (.thread thread) channel s hs) hthreads hlt hs).2
  rwa [Queue.channel, List.getD_eq_getElem?_getD, List.getElem?_eq_getElem hchannel,
    Option.getD_some] at hempty

/-! ## Queues on their own -/

namespace ServedQueue

variable {consumer : Consumer τ α} {served : ServedQueue τ α} {holds : ServedQueue τ α → Prop}

theorem produce_closed (h : served.queue.closed = true) (item : α) (wait : Wait) :
    ((line consumer).produce item wait).run served = (.error ⟨.closed, item⟩, served) := by
  have hoffer : served.queue.offer item wait = (.refused ⟨.closed, item⟩, served.queue) := by
    unfold Queue.offer
    rw [if_pos h]
  exact produce_refused hoffer

/-- The queue is closed, and what holds goes on to hold when it is drained. -/
structure KeptClosed (consumer : Consumer τ α) (holds : ServedQueue τ α → Prop) : Prop where
  closed : ∀ served, holds served → served.queue.closed = true
  drain : ∀ runner channel batchSize,
    Preserves ((line consumer).drain runner channel batchSize) holds

theorem KeptClosed.close (hkept : KeptClosed consumer holds) (h : holds served) :
    holds { served with queue := served.queue.close } := by
  have hsame : served.queue.close = served.queue := by
    unfold Queue.close
    rw [← hkept.closed served h]
  rw [hsame]
  exact h

theorem KeptClosed.poolProduce (hkept : KeptClosed consumer holds) (h : holds served)
    (settings : PoolSettings) (phase : PoolPhase) (item : α) :
    let last := (Pool.produce settings phase (line consumer) item).run served
    last.1 = .error ⟨.closed, item⟩ ∧ holds last.2 := by
  -- A producer that waits for room lets a thread drain the channel, and is handed its item back.
  have hproduce : ∀ served : ServedQueue τ α, holds served →
      ((line consumer).produce item .timesOut).run served = (.error ⟨.closed, item⟩, served) :=
    fun served h => produce_closed (hkept.closed served h) item .timesOut
  dsimp only
  rw [Pool.produce, run_get_bind]
  dsimp only
  split
  · have hlast := hkept.drain (.thread (served.queue.owner (served.queue.target item)))
      (served.queue.target item) settings.batchSize served h
    have hrun := hproduce _ hlast
    exact ⟨congrArg Prod.fst hrun, (congrArg Prod.snd hrun).symm ▸ hlast⟩
  · rw [hproduce served h]
    exact ⟨rfl, h⟩

theorem drain_empties
    (hconsume : ∀ runner batch others, ((consumer.consume runner batch).run others).1 = ([], none))
    (hready : served.queue.Ready) (runner : Runner) (channel : Nat) {batchSize : Nat}
    (hbatch : 0 < batchSize) :
    (((line consumer).drain runner channel batchSize).run served).2.queue.channel channel = [] := by
  have hcarries : (line consumer).Carries fun _ _ _ => True := by
    refine ⟨fun _ _ => rfl, fun _ _ => trivial, fun _ _ => trivial, fun runner batch _ s _ => ?_⟩
    have hanswer := hconsume runner batch s.others
    exact ⟨hanswer, trivial, rfl⟩
  have hkeeps : (line consumer).Keeps (fun _ _ _ => True) [] served.queue.waiting served :=
    ⟨hready, [], trivial, .of_eq (List.append_nil _).symm⟩
  exact (hcarries.drain hkeeps runner channel hbatch).2.2

theorem Drains.channel_nil {channel : Nat} {taken : List α} {before after : ServedQueue τ α}
    (h : Drains channel taken before after) {empty : Nat} (hempty : before.queue.channel empty = []) :
    after.queue.channel empty = [] := by
  by_cases hsame : empty = channel
  · have hown := h.own
    rw [← hsame, hempty] at hown
    exact (List.append_eq_nil_iff.mp hown.symm).2
  · rw [h.others empty hsame, hempty]

end ServedQueue

/-! ## Engines -/

namespace Engine

variable {M : Type} [Record M] {holds : Engine M → Prop}

theorem mem_attachments {engine : Engine M} {attachment : Attachment (Engine M)}
    (h : attachment ∈ Pooled.attachments engine) :
    (∃ index channels, attachment = (frontLine index).attachment channels) ∨
      (∃ index channels, attachment = (stationLine index).attachment channels) ∨
      ∃ inner : Attachment (Exports M), attachment = inner.within exportsPart := by
  obtain ⟨inlet, _, hinlet⟩ := List.mem_filterMap.mp h
  cases inlet with
  | front index =>
    obtain ⟨_, _, rfl⟩ := Option.map_eq_some_iff.mp hinlet
    exact .inl ⟨_, _, rfl⟩
  | station index =>
    obtain ⟨_, _, rfl⟩ := Option.map_eq_some_iff.mp hinlet
    exact .inr (.inl ⟨_, _, rfl⟩)
  | exporter index =>
    obtain ⟨_, _, rfl⟩ := Option.map_eq_some_iff.mp hinlet
    exact .inr (.inr ⟨_, rfl⟩)

theorem respected (hstations : ∀ index, (stationLine (M := M) index).Served holds)
    (hfronts : ∀ index, (frontLine (M := M) index).Served holds)
    (hexports : ∀ engine exports, holds engine → holds { engine with exports }) (engine : Engine M)
    {settings : PoolSettings} (hbatch : 0 < settings.batchSize) :
    Pool.Respected settings (Pooled.attachments engine) holds := by
  have hpart : ∀ {α : Type} (call : StateM (Exports M) α), Preserves (exportsPart.run call) holds :=
    fun _ engine h => hexports engine _ h
  refine ⟨?_, ?_, ?_⟩
  all_goals
    intro attachment hattachment
    rcases mem_attachments hattachment with ⟨index, _, rfl⟩ | ⟨index, _, rfl⟩ | ⟨inner, rfl⟩
  · exact fun thread channel => (hfronts index).drain _ channel _ hbatch
  · exact fun thread channel => (hstations index).drain _ channel _ hbatch
  · exact fun thread channel => hpart _
  · exact (hfronts index).close
  · exact (hstations index).close
  · exact hpart _
  · exact (hfronts index).exit
  · exact (hstations index).exit
  · exact hpart _

/-! ### Fronts -/

section

variable {index : Nat} (hstage : ∀ engine change, holds engine → holds (modifyStage index change engine))
  (hdeliver : ∀ target record, Preserves (deliver target record) holds)

include hstage hdeliver

theorem giveOut_preserves_of (flush : FirstLevel M → List M × FirstLevel M) :
    Preserves (giveOut index flush) holds := by
  apply Preserves.get_bind
  intro engine hengine
  cases engine.fronts[index]? with
  | none => exact hengine
  | some front =>
    exact ((Preserves.modify fun engine => hstage engine _).bind fun _ =>
      Preserves.forM fun record _ => hdeliver front.target record) engine hengine

theorem flushFrontIfDue_preserves_of : Preserves (flushFrontIfDue (M := M) index) holds :=
  Preserves.get_bind fun engine => giveOut_preserves_of hstage hdeliver _ engine

theorem frontLine_respects_of
    (hqueue : ∀ engine queue, holds engine → holds ((frontQueue index).set engine queue)) :
    (frontLine (M := M) index).Respects holds where
  queue := hqueue
  consume _ _ := (Preserves.modify fun engine => hstage engine _).bind fun _ =>
    (flushFrontIfDue_preserves_of hstage hdeliver).bind fun _ => .pure _
  onError _ _ _ := .pure _

end

theorem giveOut_fronts (index : Nat) (flush : FirstLevel M → List M × FirstLevel M)
    (engine : Engine M) : ((giveOut index flush).run engine).2.fronts =
      engine.fronts.modify index fun front => { front with stage := (flush front.stage).2 } := by
  unfold giveOut
  rw [run_get_bind]
  cases hfront : engine.fronts[index]? with
  | none => exact (List.modify_eq_self (List.getElem?_eq_none_iff.mp hfront)).symm
  | some front =>
    let given := modifyStage index (fun _ => (flush front.stage).2) engine
    have hgiven : given.fronts =
        engine.fronts.modify index fun front => { front with stage := (flush front.stage).2 } :=
      modify_congr hfront rfl
    have hdeliver : Preserves ((flush front.stage).1.forM (deliver front.target))
        fun last => last.fronts = given.fronts :=
      Preserves.forM fun record _ last hlast => (deliver_fronts front.target record last).trans hlast
    exact (hdeliver given rfl).trans hgiven

end Engine

end Rollup
