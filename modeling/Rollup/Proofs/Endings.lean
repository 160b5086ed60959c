import Mathlib.Data.List.Basic
import Rollup.Proofs.Settlement

/-!
# Endings

Requests that are held until each comes to its end: it is confirmed, rejected or given up, on its own or
in a flush that leaves some of them behind. What was attached to a request last is told once how it
ended. What was attached before is never told.
-/

namespace Rollup

variable {κ : Type}

/-- How a request comes to its end. -/
inductive Ending where
  | confirmed
  | rejected
  | dropped
  deriving DecidableEq, Repr

namespace Ending

/-- What is told of a request that ends like this. -/
def tell : Ending → Request κ → Option (κ × Verdict)
  | confirmed, request => request.confirm
  | rejected, request => request.reject
  | dropped, request => request.drop

def verdict : Ending → Verdict
  | confirmed => .executed
  | rejected | dropped => .failed

theorem tell_eq (ending : Ending) (request : Request κ) :
    ending.tell request = request.callback.map (·, ending.verdict) := by
  cases ending <;> rfl

end Ending

/-! ## Requests by number -/

/-- Requests by number, and what has become of them. -/
structure RequestLog (κ : Type) where
  /-- A request that has come to its end is gone. -/
  requests : List (Option (Request κ)) := []
  /-- What was told, and of which request. -/
  told : List (Nat × κ × Verdict) := []
  attached : List (Nat × κ) := []
  ended : List (Nat × Ending) := []

namespace RequestLog

/-- The entries of one request. -/
def under {α : Type} (number : Nat) (entries : List (Nat × α)) : List α :=
  (entries.filter (·.1 = number)).map (·.2)

def request? (log : RequestLog κ) (number : Nat) : Option (Request κ) := (log.requests[number]?).join

/-- A new request, with nothing attached to it. -/
def place (request : Request κ) (log : RequestLog κ) : RequestLog κ :=
  { log with requests := log.requests ++ [some { request with callback := none }] }

def attach (number : Nat) (callback : κ) (log : RequestLog κ) : RequestLog κ :=
  match log.request? number with
  | none => log
  | some request =>
    { log with
      requests := log.requests.set number (some (request.withCallback callback))
      attached := log.attached ++ [(number, callback)] }

def finish (number : Nat) (ending : Ending) (log : RequestLog κ) : RequestLog κ :=
  match log.request? number with
  | none => log
  | some request =>
    { log with
      requests := log.requests.set number none
      told := log.told ++ (ending.tell request).toList.map (number, ·)
      ended := log.ended ++ [(number, ending)] }

/-- Hands requests to a flush. It brings some to an end, in any order, and gives up those that it still
holds when it returns or breaks off. -/
def flush (handed : List Nat) (script : List (Nat × Ending)) (log : RequestLog κ) : RequestLog κ :=
  let worked := (script.filter (·.1 ∈ handed)).foldl (fun log (number, ending) =>
    log.finish number ending) log
  handed.foldl (fun log number => log.finish number .dropped) worked

end RequestLog

/-- What may happen to numbered requests. -/
inductive RequestStep (κ : Type) where
  | place (request : Request κ)
  | attach (number : Nat) (callback : κ)
  | finish (number : Nat) (ending : Ending)
  | flush (handed : List Nat) (script : List (Nat × Ending))

namespace RequestLog

def next (log : RequestLog κ) : RequestStep κ → RequestLog κ
  | .place request => log.place request
  | .attach number callback => log.attach number callback
  | .finish number ending => log.finish number ending
  | .flush handed script => log.flush handed script

def after (steps : List (RequestStep κ)) : RequestLog κ := steps.foldl next {}

def attachedTo (log : RequestLog κ) (number : Nat) : List κ := under number log.attached

def toldOf (log : RequestLog κ) (number : Nat) : List (κ × Verdict) := under number log.told

def endingsOf (log : RequestLog κ) (number : Nat) : List Ending := under number log.ended

/-! ## What has become of one request -/

/-- What is told when a request has ended to which these were attached, in this order. -/
def tellings (attached : List κ) (ending : Ending) : List (κ × Verdict) :=
  attached.getLast?.toList.map (·, ending.verdict)

/-- A request was not placed yet, is held and knows what was attached last, or has ended once. -/
inductive Standing (log : RequestLog κ) (number : Nat) : Prop
  | unplaced (beyond : log.requests.length ≤ number) (attached : log.attachedTo number = [])
      (told : log.toldOf number = []) (ended : log.endingsOf number = [])
  | held {request : Request κ} (there : log.request? number = some request)
      (callback : request.callback = (log.attachedTo number).getLast?)
      (told : log.toldOf number = []) (ended : log.endingsOf number = [])
  | gone {ending : Ending} (placed : number < log.requests.length)
      (gone : log.request? number = none) (ended : log.endingsOf number = [ending])
      (told : log.toldOf number = tellings (log.attachedTo number) ending)

variable {log : RequestLog κ} {number : Nat}

@[simp]
theorem under_append {α : Type} (number : Nat) (entries more : List (Nat × α)) :
    under number (entries ++ more) = under number entries ++ under number more := by
  simp [under]

theorem under_map_of_eq {α : Type} (number : Nat) (items : List α) :
    under number (items.map (number, ·)) = items := by
  simp [under, List.filter_map, Function.comp_def]

theorem under_map_of_ne {α : Type} {number other : Nat} (h : other ≠ number) (items : List α) :
    under number (items.map (other, ·)) = [] := by
  simp [under, h]

theorem lt_length_of_request? {request : Request κ} (h : log.request? number = some request) :
    number < log.requests.length := by
  by_contra hbeyond
  rw [request?, List.getElem?_eq_none (Nat.not_lt.mp hbeyond)] at h
  cases h

theorem Standing.congr {log' : RequestLog κ} (h : log.Standing number)
    (hlength : log'.requests.length = log.requests.length)
    (hrequest : log'.request? number = log.request? number)
    (hattached : log'.attachedTo number = log.attachedTo number)
    (htold : log'.toldOf number = log.toldOf number)
    (hended : log'.endingsOf number = log.endingsOf number) : log'.Standing number := by
  cases h with
  | unplaced beyond attached told ended =>
    exact .unplaced (hlength ▸ beyond) (hattached.trans attached) (htold.trans told)
      (hended.trans ended)
  | held there callback told ended =>
    exact .held (hrequest.trans there) (hattached ▸ callback) (htold.trans told) (hended.trans ended)
  | gone placed gone ended told =>
    refine .gone (hlength ▸ placed) (hrequest.trans gone) (hended.trans ended) ?_
    rw [htold, told, hattached]

theorem standing_place (h : log.Standing number) (request : Request κ) :
    (log.place request).Standing number := by
  have hrequest : ∀ {number}, number < log.requests.length →
      (log.place request).request? number = log.request? number := by
    intro number hlt
    rw [request?, place, List.getElem?_append_left hlt]
    rfl
  cases h with
  | unplaced beyond attached told ended =>
    rcases Nat.eq_or_lt_of_le beyond with rfl | hlt
    · have hthere : (log.place request).request? log.requests.length =
          some { request with callback := none } := by
        simp [request?, place]
      refine .held hthere ?_ told ended
      show none = (log.attachedTo _).getLast?
      rw [attached]
      rfl
    · refine .unplaced ?_ attached told ended
      simp only [place, List.length_append, List.length_singleton]
      omega
  | held there callback told ended =>
    exact .held ((hrequest (lt_length_of_request? there)).trans there) callback told ended
  | gone placed gone ended told =>
    refine .gone ?_ ((hrequest placed).trans gone) ended told
    simp only [place, List.length_append]
    omega

theorem request?_set (log : RequestLog κ) (held : Option (Request κ)) (told : List (Nat × κ × Verdict))
    (attached : List (Nat × κ)) (ended : List (Nat × Ending)) (number other : Nat) :
    (⟨log.requests.set other held, told, attached, ended⟩ : RequestLog κ).request? number =
      if other = number ∧ number < log.requests.length then held else log.request? number := by
  unfold request?
  rw [List.getElem?_set]
  by_cases heq : other = number
  · subst heq
    by_cases hlt : other < log.requests.length
    · simp [hlt]
    · simp [hlt]
  · simp [heq]

theorem standing_attach (h : log.Standing number) (other : Nat) (callback : κ) :
    (log.attach other callback).Standing number := by
  unfold attach
  cases hother : log.request? other with
  | none => exact h
  | some request =>
    dsimp only
    have hlt := lt_length_of_request? hother
    by_cases heq : other = number
    · subst heq
      cases h with
      | unplaced beyond => exact absurd hlt (Nat.not_lt.mpr beyond)
      | gone _ gone => exact absurd (hother.symm.trans gone) nofun
      | held there _ told ended =>
        have hset := request?_set log (some (request.withCallback callback)) log.told
          (log.attached ++ [(other, callback)]) log.ended other other
        rw [if_pos ⟨rfl, hlt⟩] at hset
        refine .held hset ?_ told ended
        show some callback = (under other (log.attached ++ [(other, callback)])).getLast?
        simp [under]
    · refine h.congr (List.length_set ..) ?_ ?_ rfl rfl
      · rw [request?_set, if_neg fun hand => heq hand.1]
      · simp [attachedTo, under, heq]

theorem standing_finish (h : log.Standing number) (other : Nat) (ending : Ending) :
    (log.finish other ending).Standing number := by
  unfold finish
  cases hother : log.request? other with
  | none => exact h
  | some request =>
    dsimp only
    have hlt := lt_length_of_request? hother
    by_cases heq : other = number
    · subst heq
      cases h with
      | unplaced beyond => exact absurd hlt (Nat.not_lt.mpr beyond)
      | gone _ gone => exact absurd (hother.symm.trans gone) nofun
      | held there hcallback told ended =>
        rw [hother] at there
        cases there
        have hset := request?_set log none
          (log.told ++ (ending.tell request).toList.map (other, ·)) log.attached
          (log.ended ++ [(other, ending)]) other other
        rw [if_pos ⟨rfl, hlt⟩] at hset
        have hended : under other (log.ended ++ [(other, ending)]) = [ending] := by
          rw [under_append, ← endingsOf, ended]
          simp [under]
        refine .gone (by simpa using hlt) hset hended ?_
        · show under other (log.told ++ (ending.tell request).toList.map (other, ·)) =
            tellings (log.attachedTo other) ending
          rw [under_append, ← toldOf, told, under_map_of_eq, Ending.tell_eq, hcallback, tellings]
          cases (log.attachedTo other).getLast? <;> rfl
    · refine h.congr (List.length_set ..) ?_ rfl ?_ ?_
      · rw [request?_set, if_neg fun hand => heq hand.1]
      · show under number (log.told ++ _) = _
        rw [under_append, under_map_of_ne heq, List.append_nil]
        rfl
      · show under number (log.ended ++ [(other, ending)]) = _
        rw [under_append, ← List.map_singleton (f := (other, ·)), under_map_of_ne heq,
          List.append_nil]
        rfl

theorem standing_flush (h : log.Standing number) (handed : List Nat)
    (script : List (Nat × Ending)) : (log.flush handed script).Standing number := by
  have hworked := List.foldlRecOn (script.filter (·.1 ∈ handed))
    (fun log entry => log.finish entry.1 entry.2) (motive := (Standing · number)) h
    fun _ h entry _ => standing_finish h entry.1 entry.2
  exact List.foldlRecOn handed (fun log other => log.finish other .dropped)
    (motive := (Standing · number)) hworked fun _ h other _ => standing_finish h other .dropped

theorem standing_next (h : log.Standing number) (step : RequestStep κ) :
    (log.next step).Standing number := by
  cases step with
  | place request => exact standing_place h request
  | attach other callback => exact standing_attach h other callback
  | finish other ending => exact standing_finish h other ending
  | flush handed script => exact standing_flush h handed script

theorem standing_after (steps : List (RequestStep κ)) (number : Nat) :
    (after steps).Standing number :=
  List.foldlRecOn steps next (motive := (Standing · number))
    (.unplaced (Nat.zero_le number) rfl rfl rfl) fun _ h step _ => standing_next h step

/-! ## Who is told -/

theorem tellings_perm_iff (attached : List κ) (ending : Ending) :
    (tellings attached ending).Perm (attached.map (·, ending.verdict)) ↔ attached.length ≤ 1 := by
  match attached with
  | [] => simp [tellings]
  | [callback] => simp [tellings]
  | first :: second :: rest =>
    refine ⟨fun hperm => ?_, fun hle => absurd hle (by simp)⟩
    have hlength := hperm.length_eq
    simp [tellings, List.getLast?_cons, Option.toList] at hlength

/-- What is told of a request. -/
structure Accounted (log : RequestLog κ) (number : Nat) : Prop where
  held : ∀ request ∈ log.request? number, log.toldOf number = []
  gone : number < log.requests.length → log.request? number = none → ∃ ending,
    log.endingsOf number = [ending] ∧
    log.toldOf number = tellings (log.attachedTo number) ending ∧
    ((log.toldOf number).Perm ((log.attachedTo number).map (·, ending.verdict)) ↔
      (log.attachedTo number).length ≤ 1)

/-- Once a request is gone, what was attached to it last was told once: of success if the request was
confirmed, and else of failure. That is all that was attached, unless there were two or more. -/
theorem last_attached_is_told (steps : List (RequestStep κ)) (number : Nat) :
    (after steps).Accounted number := by
  cases standing_after steps number with
  | unplaced beyond attached told ended =>
    exact ⟨fun _ _ => told, fun hplaced => absurd hplaced (Nat.not_lt.mpr beyond)⟩
  | held there callback told ended =>
    exact ⟨fun _ _ => told, fun _ hgone => absurd (there.symm.trans hgone) nofun⟩
  | @gone ending placed gone ended told =>
    refine ⟨fun request hrequest => absurd (gone.symm.trans hrequest) nofun, fun _ _ => ?_⟩
    refine ⟨ending, ended, told, ?_⟩
    rw [told]
    exact tellings_perm_iff _ ending

/-- A flush confirms one request, rejects one, and breaks off with a third in its hands. -/
theorem last_attached_is_told_of_a_broken_flush :
    let id := MetricId.onFirstDay (.single "checkout")
    let request : Request Nat :=
      { kind := .insert, model := { name := "orders", level := .day }, id, fields := .empty }
    let steps := [.place request, .attach 0 10, .place request, .attach 1 11, .place request,
      .attach 2 12, .flush [0, 1, 2] [(1, .rejected), (0, .confirmed)]]
    (after steps).told = [(1, 11, .failed), (0, 10, .executed), (2, 12, .failed)] ∧
      ∀ number < 3, (after steps).Accounted number := by
  intro id request steps
  exact ⟨by decide +kernel, fun number _ => last_attached_is_told steps number⟩

/-- Two callbacks are attached to a request, and it is confirmed. -/
theorem first_of_two_is_never_told :
    let id := MetricId.onFirstDay (.single "checkout")
    let request : Request Nat :=
      { kind := .update, model := { name := "orders", level := .day }, id, fields := .empty }
    let log := after [.place request, .attach 0 10, .attach 0 11, .finish 0 .confirmed]
    log.request? 0 = none ∧ log.attachedTo 0 = [10, 11] ∧ log.toldOf 0 = [(11, .executed)] := by
  decide +kernel

end RequestLog

end Rollup
