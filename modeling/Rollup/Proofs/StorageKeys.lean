import Rollup.Identity
import Rollup.Proofs.PackedNumbers

/-!
# Keys of stored rows

A row is found by the name of its table and the text of its identity. Both texts are put together
with separators that may stand in their parts as well, and yet each of them can be taken apart in one
way only.
-/

namespace Rollup

/-! ## Texts with a separator -/

theorem split_first {sep : Char} {a b restA restB : List Char} (ha : sep ∉ a) (hb : sep ∉ b)
    (h : a ++ sep :: restA = b ++ sep :: restB) : a = b ∧ restA = restB := by
  induction a generalizing b with
  | nil =>
    cases b with
    | nil => simpa using h
    | cons d b =>
      obtain ⟨rfl, _⟩ := List.cons.inj h
      exact absurd List.mem_cons_self hb
  | cons c a ih =>
    cases b with
    | nil =>
      obtain ⟨rfl, _⟩ := List.cons.inj h
      exact absurd List.mem_cons_self ha
    | cons d b =>
      simp only [List.cons_append, List.cons.injEq] at h
      simp only [List.mem_cons, not_or] at ha hb
      obtain ⟨rfl, hrest⟩ := ih ha.2 hb.2 h.2
      exact ⟨by rw [h.1], hrest⟩

theorem split_last {sep : Char} {a b restA restB : List Char} (ha : sep ∉ restA) (hb : sep ∉ restB)
    (h : a ++ sep :: restA = b ++ sep :: restB) : a = b ∧ restA = restB := by
  have hreverse := congrArg List.reverse h
  simp only [List.reverse_append, List.reverse_cons, List.append_assoc, List.singleton_append]
    at hreverse
  obtain ⟨hrest, hfirst⟩ := split_first (by simpa using ha) (by simpa using hb) hreverse
  exact ⟨List.reverse_inj.mp hfirst, List.reverse_inj.mp hrest⟩

theorem underscore_not_mem_digits (n : Nat) : '_' ∉ (toString n).toList := by
  rw [Nat.toString_eq_repr, Nat.toList_repr]
  intro h
  have := Nat.isDigit_of_mem_toDigits (by decide) (by decide) h
  simp at this

theorem toString_nat_inj {m n : Nat} (h : toString m = toString n) : m = n := by
  have hdigits : Nat.toDigits 10 m = Nat.toDigits 10 n := by
    have hchars := congrArg String.toList h
    rwa [Nat.toString_eq_repr, Nat.toString_eq_repr, Nat.toList_repr, Nat.toList_repr] at hchars
  have hread := congrArg (fun digits => Nat.ofDigitChars 10 digits 0) hdigits
  simpa using hread

/-! ## Tables -/

theorem Level.underscore_not_mem_name (level : Level) : '_' ∉ level.name.toList := by
  cases level <;> decide

theorem Model.storageName_inj {a b : Model} (h : a.storageName = b.storageName) :
    a.name = b.name ∧ a.level = b.level := by
  have hchars := congrArg String.toList h
  simp only [storageName, String.toList_append, List.append_assoc] at hchars
  obtain ⟨hname, hlevel⟩ := split_last a.level.underscore_not_mem_name
    b.level.underscore_not_mem_name hchars
  exact ⟨String.toList_inj.mp hname, Level.name_injective (String.toList_inj.mp hlevel)⟩

/-! ## Entities -/

namespace Entity

/-- A dimension ends here: its entity does, or a point follows. -/
def EndsHere (rest : List Char) : Prop := rest.head? = none ∨ rest.head? = some '.'

theorem head?_escape_cons (c : Char) (text rest : List Char) :
    ¬ EndsHere (escape (c :: text) ++ rest) := by
  unfold EndsHere escape
  split <;> simp_all

theorem escape_append_inj {a b restA restB : List Char} (ha : EndsHere restA) (hb : EndsHere restB)
    (h : escape a ++ restA = escape b ++ restB) : a = b ∧ restA = restB := by
  induction a generalizing b with
  | nil =>
    cases b with
    | nil => exact ⟨rfl, h⟩
    | cons d b =>
      rw [show restA = _ from h] at ha
      exact absurd ha (head?_escape_cons d b restB)
  | cons c a ih =>
    cases b with
    | nil =>
      rw [← show _ = restB from h] at hb
      exact absurd hb (head?_escape_cons c a restA)
    | cons d b =>
      -- A backslash stands in both texts or in none of them, and then the characters are the same.
      have hsame : c = d ∧ escape a ++ restA = escape b ++ restB := by
        simp only [escape] at h
        split at h <;> split at h <;> simp only [List.cons_append, List.cons.injEq] at h
        · exact h.2
        · next hd => exact absurd (.inr h.1.symm) hd
        · next hc _ => exact absurd (.inr h.1) hc
        · exact h
      obtain ⟨rfl, hrest⟩ := ih hsame.2
      exact ⟨by rw [hsame.1], hrest⟩

/-- What stands behind the first dimension. -/
def behind : List String → List Char
  | [] => []
  | rest => '.' :: renderChars rest

theorem renderChars_cons (dimension : String) (rest : List String) :
    renderChars (dimension :: rest) = escape dimension.toList ++ behind rest := by
  cases rest with
  | nil => simp [renderChars, behind]
  | cons => rfl

theorem endsHere_behind (rest : List String) : EndsHere (behind rest) := by
  cases rest with
  | nil => exact .inl rfl
  | cons => exact .inr rfl

theorem renderChars_inj {a b : List String} (ha : a ≠ []) (hb : b ≠ [])
    (h : renderChars a = renderChars b) : a = b := by
  induction a generalizing b with
  | nil => exact absurd rfl ha
  | cons first rest ih =>
    cases b with
    | nil => exact absurd rfl hb
    | cons other more =>
      rw [renderChars_cons, renderChars_cons] at h
      obtain ⟨hfirst, hbehind⟩ := escape_append_inj (endsHere_behind rest) (endsHere_behind more) h
      rw [String.toList_inj.mp hfirst]
      congr 1
      cases rest with
      | nil =>
        cases more with
        | nil => rfl
        | cons => cases hbehind
      | cons =>
        cases more with
        | nil => cases hbehind
        | cons => exact ih (by simp) (by simp) (List.cons.inj hbehind).2

end Entity

/-! ## Identities -/

theorem TimeBucket.value_inj {a b : TimeBucket} (hlevel : a.level = b.level)
    (ha : 0 ≤ a.start.date.year) (hb : 0 ≤ b.start.date.year) (h : a.value = b.value) : a = b := by
  have hA : ofValue a.value a.level = .ok a := ofValue_eq_ok_iff.mpr ⟨rfl, ha, rfl⟩
  have hB : ofValue a.value a.level = .ok b := ofValue_eq_ok_iff.mpr ⟨hlevel.symm, hb, h.symm⟩
  exact Except.ok.inj (hA.symm.trans hB)

theorem MetricId.storageId_inj {a b : MetricId} (hlevel : a.bucket.level = b.bucket.level)
    (hyearA : 0 ≤ a.bucket.start.date.year) (hyearB : 0 ≤ b.bucket.start.date.year)
    (ha : a.entity.dimensions ≠ []) (hb : b.entity.dimensions ≠ [])
    (h : a.storageId = b.storageId) : a = b := by
  have hchars := congrArg String.toList h
  simp only [storageId, TimeBucket.render, Entity.render, String.toList_append,
    String.toList_ofList, List.append_assoc] at hchars
  obtain ⟨hnumber, hentity⟩ := split_first (underscore_not_mem_digits _)
    (underscore_not_mem_digits _) hchars
  have hvalue := toString_nat_inj (String.toList_inj.mp hnumber)
  obtain ⟨⟨dimensionsA⟩, bucketA⟩ := a
  obtain ⟨⟨dimensionsB⟩, bucketB⟩ := b
  obtain rfl := TimeBucket.value_inj hlevel hyearA hyearB hvalue
  obtain rfl := Entity.renderChars_inj ha hb hentity
  rfl

/-- The table and the key of a row say what it is about: the metric, the level and the identity. -/
theorem storage_keys_tell_rows_apart {a b : Model} {i j : MetricId}
    (hi : i.bucket.level = a.level) (hj : j.bucket.level = b.level)
    (hyearI : 0 ≤ i.bucket.start.date.year) (hyearJ : 0 ≤ j.bucket.start.date.year)
    (hdimensionsI : i.entity.dimensions ≠ []) (hdimensionsJ : j.entity.dimensions ≠ [])
    (hname : a.storageName = b.storageName) (hid : i.storageId = j.storageId) :
    a.name = b.name ∧ a.level = b.level ∧ i = j := by
  obtain ⟨hnames, hlevels⟩ := Model.storageName_inj hname
  have hbuckets : i.bucket.level = j.bucket.level := by rw [hi, hj, hlevels]
  exact ⟨hnames, hlevels,
    MetricId.storageId_inj hbuckets hyearI hyearJ hdimensionsI hdimensionsJ hid⟩

theorem storage_keys_tell_rows_apart_of_separators : ∃ day named,
    TimeBucket.ofMillis 1704067200000 .day = .ok day ∧
      TimeBucket.ofValue 20240101 .day = .ok named ∧
      (⟨⟨["a.b", "", "2024_1"]⟩, day⟩ : MetricId) = ⟨⟨["a.b", "", "2024_1"]⟩, named⟩ := by
  obtain ⟨day, hday, hlevel, hyear, hvalue⟩ : ∃ day,
      TimeBucket.ofMillis 1704067200000 .day = .ok day ∧ day.level = .day ∧
        0 ≤ day.start.date.year ∧ day.value = 20240101 :=
    ⟨_, rfl, rfl, by decide, by decide⟩
  obtain ⟨named, hnamed⟩ : ∃ named, TimeBucket.ofValue 20240101 .day = .ok named := ⟨_, rfl⟩
  obtain ⟨hnamedLevel, hnamedYear, hnamedValue⟩ := TimeBucket.ofValue_eq_ok_iff.mp hnamed
  let calls : Model := ⟨"calls_day", .day, true, true⟩
  let frozen : Model := ⟨"calls_day", .day, false, true⟩
  let i : MetricId := ⟨⟨["a.b", "", "2024_1"]⟩, day⟩
  let j : MetricId := ⟨⟨["a.b", "", "2024_1"]⟩, named⟩
  have hkeys : i.storageId = j.storageId := by
    simp only [i, j, MetricId.storageId, TimeBucket.render, hvalue, hnamedValue]
  have hrows : calls.storageName = frozen.storageName := rfl
  obtain ⟨_, _, hsame⟩ := storage_keys_tell_rows_apart (a := calls) (b := frozen) (i := i) (j := j)
    hlevel hnamedLevel hyear hnamedYear (List.cons_ne_nil _ _) (List.cons_ne_nil _ _) hrows hkeys
  exact ⟨day, named, hday, hnamed, hsame⟩

end Rollup
