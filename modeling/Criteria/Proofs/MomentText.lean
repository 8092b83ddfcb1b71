import Criteria.Calendar.IsoText
import Criteria.Proofs.Ascii
import Criteria.Proofs.NumberText
import Criteria.Proofs.Steps

namespace Criteria
open IsoReader Json
variable {n width : ℕ} {c : Char} {ds cs : List Char} {rest : List UInt8}

theorem isDigit_of_mem_paddedDigits (h : c ∈ paddedDigits width n) : c.isDigit = true :=
  (List.mem_append.1 h).elim isDigit_of_mem_replicate isDigit_of_mem_toDigits

theorem length_paddedDigits (hw : 0 < width) (h : n < 10 ^ width) : (paddedDigits width n).length = width := by
  have := (Nat.length_toDigits_le_iff (b := 10) (by decide) hw).2 h
  simp only [paddedDigits, List.length_append, List.length_replicate]
  omega

@[simp] theorem ofDigitChars_paddedDigits (width n : ℕ) : Nat.ofDigitChars 10 (paddedDigits width n) 0 = n := by
  rw [paddedDigits, Nat.ofDigitChars_append, Nat.ofDigitChars_replicate_zero, Nat.mul_zero,
    Nat.ofDigitChars_ten_toDigits]

theorem toNat_of_isDigit (h : c.isDigit = true) : 0x30 ≤ c.toNat ∧ c.toNat ≤ 0x39 := by
  simp only [Char.isDigit, Bool.and_eq_true, decide_eq_true_eq, UInt32.le_iff_toNat_le] at h
  exact h

theorem isDigit_asciiByte (h : c.isDigit = true) : isDigit (UInt8.ofNat c.toNat) = true := by
  have hc := toNat_of_isDigit h
  have hbyte : (UInt8.ofNat c.toNat).toNat = c.toNat := toNat_asciiByte (by omega)
  simp only [isDigit, Bool.and_eq_true, decide_eq_true_eq, UInt8.le_iff_toNat_le, hbyte]
  exact hc

theorem takeDigits?_digits (hd : ∀ c ∈ ds, c.isDigit = true) (hn : ds.length = n) :
    takeDigits? n (asciiBytes ds ++ rest) = some (Nat.ofDigitChars 10 ds 0, rest) := by
  have hlength : (asciiBytes ds).length = n := (List.length_map _).trans hn
  have hall : (asciiBytes ds).all isDigit = true := by
    rw [asciiBytes, List.all_map, List.all_eq_true]
    exact fun c hc => isDigit_asciiByte (hd c hc)
  have hvalue (acc : ℕ) : (asciiBytes ds).foldl (fun acc b => 10 * acc + (b.toNat - 0x30)) acc =
      Nat.ofDigitChars 10 ds acc := by
    clear hlength hall hn
    induction ds generalizing acc with
    | nil => rfl
    | cons c cs ih =>
      have hc := toNat_of_isDigit (hd c List.mem_cons_self)
      rw [asciiBytes, List.map_cons, List.foldl_cons, ← asciiBytes, ih fun d h => hd d (List.mem_cons_of_mem _ h),
        toNat_asciiByte (by omega), Nat.ofDigitChars_cons]
      rfl
  unfold takeDigits?
  simp only [List.take_left' hlength, List.drop_left' hlength, hall, hvalue, hlength, decide_true, Bool.and_self,
    if_true]

theorem takeDigits?_padded (rest : List UInt8) (hw : 0 < width) (h : n < 10 ^ width) :
    takeDigits? width (asciiBytes (paddedDigits width n) ++ rest) = some (n, rest) := by
  rw [takeDigits?_digits (fun _ => isDigit_of_mem_paddedDigits) (length_paddedDigits hw h), ofDigitChars_paddedDigits]

def WrittenWith (marks cs : List Char) : Prop := ∀ c ∈ cs, c.isDigit = true ∨ c ∈ marks

section
variable {marks : List Char}

theorem WrittenWith.append (hc : WrittenWith marks cs) (hd : WrittenWith marks ds) : WrittenWith marks (cs ++ ds) :=
  fun c h => (List.mem_append.1 h).elim (hc c) (hd c)

theorem WrittenWith.cons (hc : c ∈ marks) (h : WrittenWith marks cs) : WrittenWith marks (c :: cs) :=
  List.forall_mem_cons.2 ⟨.inr hc, h⟩

theorem writtenWith_nil : WrittenWith marks [] := fun _ h => nomatch h

theorem writtenWith_padded (width n : ℕ) : WrittenWith marks (paddedDigits width n) :=
  fun _ h => .inl (isDigit_of_mem_paddedDigits h)

theorem writtenWith_micro (n : ℕ) (hpoint : '.' ∈ marks) : WrittenWith marks (microChars n) := by
  unfold microChars
  split
  · exact writtenWith_nil
  · exact (writtenWith_padded 6 n).cons hpoint

theorem writtenWith_clock (c : Clock) (hpoint : '.' ∈ marks) (hcolon : ':' ∈ marks) :
    WrittenWith marks c.isoChars :=
  (((writtenWith_padded 2 _).append ((writtenWith_padded 2 _).cons hcolon)).append
    ((writtenWith_padded 2 _).cons hcolon)).append (writtenWith_micro _ hpoint)

theorem writtenWith_offset (o : Offset) (hpoint : '.' ∈ marks) (hcolon : ':' ∈ marks) (hminus : '-' ∈ marks)
    (hplus : '+' ∈ marks) : WrittenWith marks o.isoChars := by
  have hsign : (if o.micros < 0 then '-' else '+') ∈ marks := by
    split
    · exact hminus
    · exact hplus
  have hseconds (n : ℕ) : WrittenWith marks (if n % 60 = 0 && o.micros.natAbs % 1000000 = 0 then []
      else ':' :: paddedDigits 2 (n % 60)) := by
    split
    · exact writtenWith_nil
    · exact (writtenWith_padded 2 _).cons hcolon
  exact ((((writtenWith_padded 2 _).append ((writtenWith_padded 2 _).cons hcolon)).cons hsign).append
    (hseconds _)).append (writtenWith_micro _ hpoint)

end

theorem writtenWith_moment (m : Moment) : WrittenWith ['-', '+', ':', '.', 'T'] (m.isoChars 'T') := by
  have hdate : WrittenWith ['-', '+', ':', '.', 'T'] m.date.isoChars :=
    ((writtenWith_padded 4 _).append ((writtenWith_padded 2 _).cons (by decide))).append
      ((writtenWith_padded 2 _).cons (by decide))
  have hoffset : WrittenWith ['-', '+', ':', '.', 'T'] (m.offset.elim [] Offset.isoChars) := by
    cases m.offset with
    | none => exact writtenWith_nil
    | some o => exact writtenWith_offset o (by decide) (by decide) (by decide) (by decide)
  exact (hdate.append ((writtenWith_clock m.clock (by decide) (by decide)).cons (by decide))).append hoffset

theorem clockFields?_last {colons : Option Bool} {v : ℕ} (hv : v < 100) :
    clockFields? (n + 1) colons (asciiBytes (paddedDigits 2 v)) = some ([v], .stop false) := by
  have := takeDigits?_padded [] Nat.two_pos hv
  rw [List.append_nil] at this
  rw [clockFields?, this]

theorem clockFields?_colon {colons : Option Bool} {v : ℕ} (hv : v < 100) (hc : colons = none ∨ colons = some true)
    (hr : rest ≠ []) :
    clockFields? (n + 1) colons (asciiBytes (paddedDigits 2 v) ++ colon :: rest) =
      (clockFields? n (some true) rest).map fun r => (v :: r.1, r.2) := by
  obtain ⟨b, bs, rfl⟩ := List.exists_cons_of_ne_nil hr
  rw [clockFields?, takeDigits?_padded _ (by decide) hv]
  rcases hc with rfl | rfl <;> rfl

theorem clockFields?_point {colons : Option Bool} {v : ℕ} (hv : v < 100) (hr : rest ≠ []) :
    clockFields? (n + 1) colons (asciiBytes (paddedDigits 2 v) ++ point :: rest) = some ([v], .fraction rest) := by
  obtain ⟨b, bs, rfl⟩ := List.exists_cons_of_ne_nil hr
  have hcolon : (point == colon) = false := rfl
  rw [clockFields?, takeDigits?_padded _ (by decide) hv]
  simp [hcolon]

theorem fractionMicros?_six {micro : ℕ} (h : micro < 1000000) :
    fractionMicros? (asciiBytes (paddedDigits 6 micro)) = some (micro, false) := by
  have hlength : (asciiBytes (paddedDigits 6 micro)).length = 6 :=
    (List.length_map _).trans (length_paddedDigits (by decide) h)
  have hdigits := takeDigits?_padded [] (Nat.succ_pos 5) h
  rw [List.append_nil] at hdigits
  unfold fractionMicros?
  simp only [hlength, Nat.min_self, hdigits]
  simp

theorem asciiBytes_ne_nil (h : cs ≠ []) : asciiBytes cs ≠ [] := by simpa [asciiBytes] using h

theorem paddedDigits_ne_nil (width n : ℕ) : paddedDigits width n ≠ [] := by
  simp [paddedDigits, Nat.toDigits_ne_nil]

theorem asciiBytes_colon (cs : List Char) : asciiBytes (':' :: cs) = colon :: asciiBytes cs := rfl

/-- Hours, minutes, seconds and microseconds are read as they are written. -/
theorem rawClock?_seconds {h m s micro : ℕ} (hh : h < 100) (hm : m < 100) (hs : s < 100) (hmicro : micro < 1000000) :
    rawClock? (asciiBytes (paddedDigits 2 h ++ ':' :: (paddedDigits 2 m ++ ':' :: (paddedDigits 2 s ++
      microChars micro)))) = some ⟨h, m, s, micro, false⟩ := by
  have hfields : clockFields? 3 none (asciiBytes (paddedDigits 2 h ++ ':' :: (paddedDigits 2 m ++ ':' ::
      (paddedDigits 2 s ++ microChars micro)))) = some ([h, m, s],
        if micro = 0 then .stop false else .fraction (asciiBytes (paddedDigits 6 micro))) := by
    simp only [asciiBytes_append, asciiBytes_colon]
    rw [clockFields?_colon hh (.inl rfl) (by simp), clockFields?_colon hm (.inr rfl)
      (by simp [asciiBytes_ne_nil (paddedDigits_ne_nil 2 s)])]
    unfold microChars
    by_cases h0 : micro = 0
    · rw [if_pos h0, if_pos h0]
      show ((clockFields? 1 _ (asciiBytes _ ++ [])).map _).map _ = _
      rw [List.append_nil, clockFields?_last hs]
      rfl
    · rw [if_neg h0, if_neg h0]
      show ((clockFields? 1 _ (asciiBytes _ ++ point :: asciiBytes (paddedDigits 6 micro))).map _).map _ = _
      rw [clockFields?_point hs (asciiBytes_ne_nil (paddedDigits_ne_nil 6 micro))]
      rfl
  rw [rawClock?, hfields]
  by_cases h0 : micro = 0
  · simp [h0]
  · simp [h0, fractionMicros?_six hmicro]

theorem rawClock?_minutes {h m : ℕ} (hh : h < 100) (hm : m < 100) :
    rawClock? (asciiBytes (paddedDigits 2 h ++ ':' :: paddedDigits 2 m)) = some ⟨h, m, 0, 0, false⟩ := by
  rw [rawClock?, asciiBytes_append, asciiBytes_colon,
    clockFields?_colon hh (.inl rfl) (asciiBytes_ne_nil (paddedDigits_ne_nil 2 m)), clockFields?_last hm]
  rfl

def Offset.IsReadable (o : Offset) : Prop := o.micros = 0 ∨ 1000000 ≤ o.micros.natAbs

theorem rawClock?_offset {seconds micro : ℕ} (hs : seconds < 86400) (hmicro : micro < 1000000) :
    rawClock? (asciiBytes (paddedDigits 2 (seconds / 3600) ++ ':' :: paddedDigits 2 (seconds / 60 % 60) ++
      (if seconds % 60 = 0 && micro = 0 then [] else ':' :: paddedDigits 2 (seconds % 60)) ++ microChars micro)) =
      some ⟨seconds / 3600, seconds / 60 % 60, seconds % 60, micro, false⟩ := by
  by_cases h0 : seconds % 60 = 0 ∧ micro = 0
  · rw [h0.1, h0.2]
    have := rawClock?_minutes (h := seconds / 3600) (m := seconds / 60 % 60) (by omega) (by omega)
    simpa [microChars] using this
  · have := rawClock?_seconds (h := seconds / 3600) (m := seconds / 60 % 60) (s := seconds % 60) (by omega) (by omega)
      (by omega) hmicro
    simpa [h0] using this

def IsoReader.RawClock.micros (raw : RawClock) : ℤ :=
  let seconds : ℤ := (raw.hour * 60 + raw.minute) * 60 + raw.second
  if seconds = 0 then 0 else seconds * 1000000 + raw.micro

theorem Offset.exists_isoChars (o : Offset) (h : o.IsReadable) :
    ∃ text raw, o.isoChars = (if o.micros < 0 then '-' else '+') :: text ∧ rawClock? (asciiBytes text) = some raw ∧
      raw.micros = o.micros.natAbs ∧ raw.leftover = false := by
  have hseconds : o.micros.natAbs / 1000000 < 86400 := by
    have := o.bounded
    simp only [microsPerDay] at this
    omega
  refine ⟨_, _, rfl, rawClock?_offset hseconds (Nat.mod_lt _ (by decide)), ?_, rfl⟩
  unfold Offset.IsReadable at h
  simp only [RawClock.micros]
  split_ifs <;> omega

def Clock.raw (c : Clock) : RawClock := ⟨c.hour, c.minute, c.second, c.micro, false⟩

@[simp] theorem checkedClock_raw (c : Clock) : checkedClock c.raw = .ok c := by
  unfold checkedClock
  simp only [Clock.raw, c.hour.isLt, c.minute.isLt, c.second.isLt, Nat.mod_eq_of_lt c.micro.isLt, dif_pos]

theorem isSign_asciiByte (h : c.isDigit = true ∨ c ∈ [':', '.']) :
    (UInt8.ofNat c.toNat == plus || UInt8.ofNat c.toNat == hyphen) = false := by
  rcases h with hdigit | hmark
  · have hc := toNat_of_isDigit hdigit
    have hne {b : UInt8} (hb : b.toNat < 0x30) : (UInt8.ofNat c.toNat == b) = false := by
      rw [beq_eq_false_iff_ne]
      rintro rfl
      rw [toNat_asciiByte (by omega)] at hb
      omega
    rw [hne (by decide), hne (by decide)]
    rfl
  · rcases List.mem_pair.1 hmark with rfl | rfl <;> rfl

section
variable {bs : List UInt8} {raw : RawClock} (hbs : ∀ b ∈ bs, (!(b == plus || b == hyphen)) = true)
  (hclock : rawClock? bs = some raw)
include hbs hclock

theorem timeAndOffset?_of_clock (hleft : raw.leftover = false) : timeAndOffset? bs = some (raw, none) := by
  unfold timeAndOffset?
  simp only [List.takeWhile_eq_self_iff.2 hbs, List.dropWhile_eq_nil_iff.2 hbs, hclock]
  show (if raw.leftover then none else some (raw, none)) = _
  rw [hleft, if_neg Bool.false_ne_true]

theorem timeAndOffset?_of_offset {s : UInt8} {offset : RawClock} (hs : (s == plus || s == hyphen) = true)
    (hoffset : rawClock? rest = some offset) (hleft : offset.leftover = false) :
    timeAndOffset? (bs ++ s :: rest) = some (raw, some (if s == hyphen then -offset.micros else offset.micros)) := by
  have htake : (bs ++ s :: rest).takeWhile (fun b => !(b == plus || b == hyphen)) = bs := by
    rw [List.takeWhile_append_of_pos hbs, List.takeWhile_cons, hs]
    exact List.append_nil _
  have hdrop : (bs ++ s :: rest).dropWhile (fun b => !(b == plus || b == hyphen)) = s :: rest := by
    rw [List.dropWhile_append_of_pos hbs, List.dropWhile_cons, hs]
    rfl
  unfold timeAndOffset?
  simp only [htake, hdrop, hclock]
  show (rawClock? rest >>= _) = _
  rw [hoffset]
  show (if offset.leftover then none else some (raw, some _)) = _
  rw [hleft, if_neg Bool.false_ne_true]
  rfl

end

theorem timeAndOffset?_isoChars (c : Clock) (offset : Option Offset) (h : ∀ o ∈ offset, o.IsReadable) :
    timeAndOffset? (asciiBytes (c.isoChars ++ offset.elim [] Offset.isoChars)) =
      some (c.raw, offset.map Offset.micros) := by
  have hclock : rawClock? (asciiBytes c.isoChars) = some c.raw := by
    have := rawClock?_seconds (h := c.hour) (m := c.minute) (s := c.second) (by omega) (by omega) (by omega)
      c.micro.isLt
    simpa [Clock.isoChars, Clock.raw] using this
  have hnosign : ∀ b ∈ asciiBytes c.isoChars, (!(b == plus || b == hyphen)) = true := by
    intro b hb
    obtain ⟨d, hd, rfl⟩ := List.mem_map.1 hb
    rw [isSign_asciiByte (writtenWith_clock c (by decide) (by decide) d hd)]
    rfl
  cases offset with
  | none =>
    show timeAndOffset? (asciiBytes (c.isoChars ++ [])) = _
    rw [List.append_nil]
    exact timeAndOffset?_of_clock hnosign hclock rfl
  | some o =>
    obtain ⟨text, raw, htext, hraw, hmicros, hleft⟩ := o.exists_isoChars (h o rfl)
    show timeAndOffset? (asciiBytes (c.isoChars ++ o.isoChars)) = some (c.raw, some o.micros)
    rw [asciiBytes_append, htext, asciiBytes_cons]
    by_cases hneg : o.micros < 0
    · rw [if_pos hneg, timeAndOffset?_of_offset hnosign hclock rfl hraw hleft, if_pos (by decide), hmicros]
      exact congrArg (fun k => some (c.raw, some k)) (by omega)
    · rw [if_neg hneg, timeAndOffset?_of_offset hnosign hclock rfl hraw hleft, if_neg (by decide), hmicros]
      exact congrArg (fun k => some (c.raw, some k)) (by omega)

theorem isDigit_headD_asciiBytes (rest : List UInt8) (hd : ∀ c ∈ ds, c.isDigit = true) (hne : ds ≠ []) :
    isDigit ((asciiBytes ds ++ rest).headD 0) = true := by
  obtain ⟨c, cs, rfl⟩ := List.exists_cons_of_ne_nil hne
  exact isDigit_asciiByte (hd c List.mem_cons_self)

theorem beq_weekMark {b : UInt8} (h : isDigit b = true) : (b == weekMark) = false := by
  rw [beq_eq_false_iff_ne]
  rintro rfl
  exact absurd h (by decide)

theorem daysInMonth_le (year month : ℕ) : daysInMonth year month ≤ 31 := by
  unfold daysInMonth
  split_ifs <;> decide

@[simp] theorem dateParts?_isoChars (d : Date) (rest : List UInt8) :
    dateParts? 10 (asciiBytes d.isoChars ++ rest) = some (d.year, d.month, d.day) := by
  obtain ⟨⟨-, hyear⟩, ⟨-, hmonth⟩, -, hday⟩ := d.valid
  have hdays := daysInMonth_le d.year d.month
  have hbytes : asciiBytes d.isoChars ++ rest = asciiBytes (paddedDigits 4 d.year) ++ (hyphen ::
      (asciiBytes (paddedDigits 2 d.month) ++ (hyphen :: (asciiBytes (paddedDigits 2 d.day) ++ rest)))) := by
    simp only [Date.isoChars, asciiBytes_append, asciiBytes_cons, List.append_assoc, List.cons_append]
    rfl
  have hdigit := isDigit_headD_asciiBytes (hyphen :: (asciiBytes (paddedDigits 2 d.day) ++ rest))
    (fun _ => isDigit_of_mem_paddedDigits) (paddedDigits_ne_nil 2 d.month)
  have hmonthDigits := takeDigits?_padded (n := d.month) (hyphen :: (asciiBytes (paddedDigits 2 d.day) ++ rest))
    Nat.two_pos (by omega)
  have hdayDigits := takeDigits?_padded (n := d.day) rest Nat.two_pos (by omega)
  rw [dateParts?, hbytes, takeDigits?_padded _ (by decide) (by omega)]
  simp only [Option.bind_eq_bind, Option.bind_some, List.headD_cons, beq_self_eq_true, if_true, List.drop_succ_cons,
    List.drop_zero, beq_weekMark hdigit, Bool.false_eq_true, if_false, takeHyphen?, hmonthDigits,
    hdayDigits]
  rfl

theorem exists_dateBytes (d : Date) :
    ∃ a b c e f g h i, asciiBytes d.isoChars = [a, b, c, e, hyphen, f, g, hyphen, h, i] ∧ isDigit f = true := by
  obtain ⟨⟨-, hyear⟩, ⟨-, hmonth⟩, -, hday⟩ := d.valid
  have hdays := daysInMonth_le d.year d.month
  have hfour : (paddedDigits 4 d.year).length = 4 := length_paddedDigits (by decide) (by omega)
  have htwo {n : ℕ} (h : n < 100) : (paddedDigits 2 n).length = 2 := length_paddedDigits (by decide) h
  obtain ⟨a, b, c, e, hy⟩ := List.length_eq_four.1 hfour
  obtain ⟨f, g, hm⟩ := List.length_eq_two.1 (htwo (n := d.month) (by omega))
  obtain ⟨h, i, hd⟩ := List.length_eq_two.1 (htwo (n := d.day) (by omega))
  have hf : f.isDigit = true := isDigit_of_mem_paddedDigits (hm ▸ List.mem_cons_self)
  have hchars : d.isoChars = [a, b, c, e, '-', f, g, '-', h, i] := by
    rw [Date.isoChars, hy, hm, hd]
    rfl
  exact ⟨_, _, _, _, _, _, _, _, congrArg asciiBytes hchars, isDigit_asciiByte hf⟩

theorem parts?_isoChars (m : Moment) (h : ∀ o ∈ m.offset, o.IsReadable) :
    parts? (asciiBytes (m.isoChars 'T')) =
      some ((m.date.year, m.date.month, m.date.day), m.clock.raw, m.offset.map Offset.micros) := by
  have hbytes : asciiBytes (m.isoChars 'T') = asciiBytes m.date.isoChars ++
      (0x54 :: asciiBytes (m.clock.isoChars ++ m.offset.elim [] Offset.isoChars)) := by
    simp only [Moment.isoChars, asciiBytes_append, asciiBytes_cons, List.append_assoc, List.cons_append]
    rfl
  have hdate := dateParts?_isoChars m.date (0x54 :: asciiBytes (m.clock.isoChars ++ m.offset.elim [] Offset.isoChars))
  obtain ⟨a, b, c, d, e, f, g, i, hten, he⟩ := exists_dateBytes m.date
  rw [hbytes]
  rw [hten] at hdate ⊢
  generalize htime : asciiBytes (m.clock.isoChars ++ m.offset.elim [] Offset.isoChars) = time at *
  have hlength : dateLength? ([a, b, c, d, hyphen, e, f, hyphen, g, i] ++ 0x54 :: time) = some 10 := by
    simp [dateLength?, beq_weekMark he]
  rw [parts?, if_neg (by simp), hlength]
  show (dateParts? 10 ([a, b, c, d, hyphen, e, f, hyphen, g, i] ++ 0x54 :: time) >>= _) = _
  rw [hdate]
  show (timeAndOffset? time >>= _) = _
  rw [← htime, timeAndOffset?_isoChars m.clock m.offset h]
  rfl

@[simp] theorem bytes?_ofChars (cs : List Char) : bytes? (.ofChars cs) = some (String.ofList cs).toUTF8.toList := by
  have hnone : ([7, 8, 10].find? fun i => ((Text.ofChars cs)[i]?).any CodePoint.isSurrogate) = none := by
    refine List.find?_eq_none.2 fun i _ => ?_
    cases hi : (Text.ofChars cs)[i]? with
    | none => exact Bool.false_ne_true
    | some p =>
      obtain ⟨c, -, rfl⟩ := List.mem_map.1 (List.mem_of_getElem? hi)
      exact Bool.false_ne_true
  rw [bytes?, hnone]
  simp

/-- A moment is read as it is written. -/
theorem moment_isoText (m : Moment) (h : ∀ o ∈ m.offset, o.IsReadable) : moment (expandZulu m.isoText) = .ok m := by
  have htext : Text.ofString m.isoText = .ofChars (m.isoChars 'T') := Text.ofString_ofList _
  have hexpand : expandZulu (.ofChars (m.isoChars 'T')) = .ofChars (m.isoChars 'T') := by
    have hplain : ∀ p ∈ Text.ofChars (m.isoChars 'T'),
        (if p = .char 'Z' then Text.ofString "+00:00" else [p]) = [p] := by
      rintro p hp
      rw [if_neg]
      rintro rfl
      exact absurd (writtenWith_moment m 'Z' (Text.char_mem_ofChars.1 hp)) (by decide)
    rw [expandZulu, List.flatMap_congr hplain, List.flatMap_singleton']
  have hascii : IsAscii (m.isoChars 'T') := by
    intro c hc
    rcases writtenWith_moment m c hc with hdigit | hmark
    · have := toNat_of_isDigit hdigit
      omega
    · exact (by decide : IsAscii ['-', '+', ':', '.', 'T']) c hmark
  have hoffset : checkedOffset (m.offset.map Offset.micros) = .ok m.offset := by
    cases m.offset with
    | none => rfl
    | some o => exact dif_pos o.bounded
  have hdate : checkedDate m.date.year m.date.month m.date.day = .ok m.date := dif_pos m.date.valid
  rw [htext, hexpand, moment, bytes?_ofChars, toUTF8_ascii hascii, Option.bind_some, parts?_isoChars m h]
  simp only [hoffset, hdate, checkedClock_raw]
  rfl

theorem natAbs_of_timeAndOffset? {bs : List UInt8} {raw : RawClock} {micros : ℤ}
    (h : timeAndOffset? bs = some (raw, some micros)) : micros = 0 ∨ 1000000 ≤ micros.natAbs := by
  unfold timeAndOffset? at h
  obtain ⟨clock, -, h⟩ := Option.bind_eq_some_iff.1 h
  split at h
  · split at h
    · exact nomatch h
    · exact nomatch (Prod.mk.inj (Option.some.inj h)).2
  · obtain ⟨o, -, h⟩ := Option.bind_eq_some_iff.1 h
    split at h
    · exact nomatch h
    · have hm := Option.some.inj (Prod.mk.inj (Option.some.inj h)).2
      split_ifs at hm <;> omega

theorem natAbs_of_parts? {bs : List UInt8} {date : ℕ × ℕ × ℕ} {raw : RawClock} {micros : ℤ}
    (h : parts? bs = some (date, raw, some micros)) : micros = 0 ∨ 1000000 ≤ micros.natAbs := by
  unfold parts? at h
  split at h
  · exact nomatch h
  · obtain ⟨length, -, h⟩ := Option.bind_eq_some_iff.1 h
    obtain ⟨date', -, h⟩ := Option.bind_eq_some_iff.1 h
    split at h
    · exact nomatch (Prod.mk.inj (Prod.mk.inj (Option.some.inj h)).2).2
    · obtain ⟨time, htime, h⟩ := Option.bind_eq_some_iff.1 h
      cases h
      exact natAbs_of_timeAndOffset? htime

/-- No moment is read with an offset that would not be read as it is written. -/
theorem isReadable_of_moment {text : Text} {m : Moment} (h : moment text = .ok m) :
    ∀ o ∈ m.offset, o.IsReadable := by
  unfold moment at h
  split at h
  · exact nomatch h
  · next year month day clock offset hparts =>
    obtain ⟨checked, hchecked, h⟩ := bind_eq_ok h
    obtain ⟨date, -, h⟩ := bind_eq_ok h
    obtain ⟨clock', -, h⟩ := bind_eq_ok h
    cases h
    rintro o rfl
    cases offset with
    | none => exact nomatch hchecked
    | some micros =>
      simp only [checkedOffset] at hchecked
      split at hchecked
      · cases hchecked
        obtain ⟨bs, -, hparts⟩ := Option.bind_eq_some_iff.1 hparts
        exact natAbs_of_parts? hparts
      · exact nomatch hchecked

end Criteria
