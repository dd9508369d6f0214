import Logwire.Proofs.Time.Timestamp

/-!
# Logwire.Proofs.Time.Normal

The normal form of a timestamp: what is written of the moment that it denotes.

Letters small or capital, fractions of any length, a zone that is `Z` or `-00:00`
or has more than 59 minutes: all this is gone from the normal form, which keeps
the fields down to the second and the offset of the clock.  It is a narrow
timestamp without a fraction and its own normal form, and moments with different
fields have different ones: `isNormalOf_format`.
-/

namespace Logwire.Time

open Number Text

/-- A character that no class of a pattern takes stands nowhere in a text that fits it. -/
theorem Fits.not_mem {ps : List (Char → Bool)} {s : List Char} (h : Fits ps s) {c : Char}
    (hc : ∀ p ∈ ps, p c = false) : c ∉ s := by
  intro hmem
  refine h.forall (P := fun d => d ≠ c) (fun p hp d hd => ?_) c hmem rfl
  rintro rfl
  rw [hc p hp] at hd
  contradiction

namespace Moment

/-- The moment at the beginning of its second. -/
def wholeSecond (m : Moment) : Moment := { m with microsecond := 0 }

/-- Without its microseconds a moment can still be written. -/
theorem Readable.wholeSecond {m : Moment} (h : m.Readable) : m.wholeSecond.Readable := by
  obtain ⟨⟨h1, h2, h3, h4, h5, h6, -⟩, hoffset⟩ := h
  exact ⟨⟨h1, h2, h3, h4, h5, h6, Nat.zero_le _⟩, hoffset⟩

/-- The fraction of a second is not written. -/
theorem format_wholeSecond (m : Moment) : m.wholeSecond.format = m.format := rfl

/-- What is written has no point. -/
theorem not_mem_format {m : Moment} (h : m.Readable) : '.' ∉ m.format.toList := by
  obtain ⟨hv, o, ho, hmin⟩ := h
  have hf := formed_parts hv ho hmin
  have hbase : ∀ p ∈ baseShape, p '.' = false := by decide
  have hzone : ∀ p ∈ zoneShape, p '.' = false := by decide
  rw [toList_format ho]
  simp only [Parts.chars, List.mem_append, not_or]
  refine ⟨⟨hf.base.not_mem hbase, List.not_mem_nil⟩, ?_⟩
  rcases hf.zone with hz | hz | hz
  · rw [hz]
    decide
  · rw [hz]
    decide
  · exact hz.not_mem hzone

/-- What is written ends in `Z` exactly on a clock at offset zero. -/
theorem getLast?_format {m : Moment} (h : m.Readable) :
    m.format.toList.getLast? = some 'Z' ↔ m.offset = some 0 := by
  obtain ⟨hv, o, ho, hmin⟩ := h
  obtain ⟨hform, hsmall, -, hoffset⟩ := zone_of_offset hmin (natAbs_offset_lt hv ho) m.base []
  have hbase : 'Z' ∉ m.base := (base_of_valid hv [] []).1.not_mem (by decide)
  have htext : m.format.toList = m.base ++ offsetText o := by
    rw [toList_format ho]
    simp [Parts.chars, parts, Parts.fractionChars]
  rw [htext, ho, Option.some.injEq]
  rcases hform with hz | hz | hz
  · rw [hz] at hoffset ⊢
    have hzero : o = 0 := hoffset.symm
    exact iff_of_true (by simp) hzero
  · exact absurd hz hsmall
  · have hzone : 'Z' ∉ offsetText o := hz.not_mem (by decide)
    refine iff_of_false (fun hlast => ?_) ?_
    · cases List.mem_append.mp (List.mem_of_getLast? hlast) with
      | inl hm => exact hbase hm
      | inr hm => exact hzone hm
    · rintro rfl
      exact hzone (List.mem_singleton.mpr rfl)

end Moment

/-- The text is the normal form of a moment. -/
structure IsNormalOf (text : String) (m : Moment) : Prop where
  narrow : isSyslogTimestamp text = true
  oneLine : hasLineBreak text = false
  fraction : '.' ∉ text.toList
  reads : parseRfc3339 text = .ok m.wholeSecond
  zone : text.toList.getLast? = some 'Z' ↔ m.offset = some 0
  fixed : ∀ d, parseRfc3339 text = .ok d → d.format = text

/-- **What is written of a moment is its normal form**, for every moment that a timestamp denotes
and for every moment in range on a clock some whole minutes from UTC.  Timestamps have one normal
form exactly if they denote moments with the same fields and offset. -/
theorem isNormalOf_format :
    (∀ text m, parseRfc3339 text = .ok m → IsNormalOf m.format m) ∧
      (∀ m : Moment, ∀ o, m.Valid → m.offset = some o → o % 60 = 0 → IsNormalOf m.format m) ∧
      ∀ text text' m m', parseRfc3339 text = .ok m → parseRfc3339 text' = .ok m' →
        (m.format = m'.format ↔ m.wholeSecond = m'.wholeSecond) := by
  have hnormal : ∀ m : Moment, m.Readable → IsNormalOf m.format m := by
    intro m h
    exact {
      narrow := isSyslogTimestamp_format h
      oneLine := hasLineBreak_format h
      fraction := Moment.not_mem_format h
      reads := parseRfc3339_format h
      zone := Moment.getLast?_format h
      fixed := fun d hd => by
        obtain rfl := Except.ok.inj ((parseRfc3339_format h).symm.trans hd)
        rfl }
  refine ⟨fun text m h => hnormal m (readable_of_parseRfc3339 h),
    fun m o hv ho hmin => hnormal m ⟨hv, o, ho, hmin⟩,
    fun text text' m m' h h' => ⟨fun he => ?_, fun he => ?_⟩⟩
  · have hm := (hnormal m (readable_of_parseRfc3339 h)).reads
    have hm' := (hnormal m' (readable_of_parseRfc3339 h')).reads
    rw [he] at hm
    exact Except.ok.inj (hm.symm.trans hm')
  · rw [← m.format_wholeSecond, he, m'.format_wholeSecond]

/-- A year below 1000, a small letter, seven digits of a fraction, and 99 minutes in the zone. -/
def oddStamp : String := "0042-02-28t23:59:59.9999999+01:99"

def oddMoment : Moment := ⟨⟨42, 2, 28⟩, 23, 59, 59, 999999, some 9540⟩

theorem isNormalOf_format_odd : parseRfc3339 oddStamp = .ok oddMoment ∧
    parseRfc3339 "0042-02-28T23:59:59+02:39" = .ok oddMoment.wholeSecond ∧ oddMoment.Valid ∧
    IsNormalOf oddMoment.format oddMoment ∧
    oddMoment.wholeSecond.format = "0042-02-28T23:59:59+02:39" ∧
    oddMoment.format = oddMoment.wholeSecond.format := by
  have hodd : parseRfc3339 oddStamp = .ok oddMoment := by rfl
  have hplain : parseRfc3339 "0042-02-28T23:59:59+02:39" = .ok oddMoment.wholeSecond := by rfl
  have hvalid : oddMoment.Valid := oddMoment.fault?_fields_eq_none_iff.mp (by decide)
  have hsame : oddMoment.format = oddMoment.wholeSecond.format :=
    (isNormalOf_format.2.2 _ _ _ _ hodd hplain).mpr rfl
  exact ⟨hodd, hplain, hvalid, isNormalOf_format.2.1 _ _ hvalid rfl rfl, by decide, hsame⟩

end Logwire.Time
