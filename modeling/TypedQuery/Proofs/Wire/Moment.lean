import TypedQuery.Proofs.Calendar.DayNumber
import TypedQuery.Proofs.Calendar.Reading
import TypedQuery.Proofs.Wire.SentArray
import TypedQuery.Wire.Element

/-!
# Dates and times in both formats

The server sends a date, a time of day or a timestamp as a text or as a number.  Both are read as
the same value unless the text has a form that only the server knows: a year that is not plain, the
end of a day, or the seconds of a zone offset.
-/

namespace TypedQuery
namespace Wire

open Calendar Number
open Calendar.Reader (IsPlainYear dateText eraText yearNumber zoneText)

/-- A timestamp of zone zero, and the date and time of day at which the server shows it in a zone
that is so many seconds ahead. -/
structure ZonedMoment where
  date : Date
  micros : Nat
  micros_lt : micros < 86400000000
  offset : Int
  offset_lt : offset.natAbs < 86400
  wallYear : Int
  wallMonth : Nat
  wallDay : Nat
  wallMicros : Nat
  wallDay_pos : 1 ≤ wallDay
  wallDay_le : wallDay ≤ daysInMonth wallYear wallMonth
  wallMicros_lt : wallMicros < 86400000000
  same_instant : Date.dayNumber wallYear wallMonth wallDay * 86400000000 + wallMicros =
    date.toDayNumber * 86400000000 + micros + offset * 1000000

/-- What the server can send; a time of day may be the end of the day. -/
inductive Moment where
  | date (date : Date)
  | time (micros : Nat) (micros_le : micros ≤ 86400000000)
  | timestamp (date : Date) (micros : Nat) (micros_lt : micros < 86400000000)
  | zoned (moment : ZonedMoment)

namespace Moment

def type : Moment -> Oid
  | date _ => Oid.date
  | time _ _ => Oid.time
  | timestamp _ _ _ => Oid.timestamp
  | zoned _ => Oid.timestamptz

def text : Moment -> List Char
  | date d => dateText (yearNumber d.year) d.month d.day ++ eraText d.year
  | time micros _ => ClockReading.text micros
  | timestamp d micros _ => dateText (yearNumber d.year) d.month d.day ++
      ' ' :: (ClockReading.text micros ++ eraText d.year)
  | zoned z => dateText (yearNumber z.wallYear) z.wallMonth z.wallDay ++
      ' ' :: (ClockReading.text z.wallMicros ++ (zoneText z.offset ++ eraText z.wallYear))

def bytes : Moment -> List UInt8
  | date d => BigEndian.ofInt 4 d.toDayNumber
  | time micros _ => BigEndian.ofInt 8 micros
  | timestamp d micros _ => BigEndian.ofInt 8 (d.toDayNumber * 86400000000 + micros)
  | zoned z => BigEndian.ofInt 8 (z.date.toDayNumber * 86400000000 + z.micros)

/-- The value of the number; the end of a day is its beginning. -/
def value : Moment -> Value
  | date d => .date d
  | time micros _ => .time (.ofMicroseconds micros)
  | timestamp d micros _ => .timestamp ⟨d, .ofMicroseconds micros⟩
  | zoned z => .timestamp ⟨z.date, .ofMicroseconds z.micros⟩

/-- The text has a form that is read. -/
def IsPlain : Moment -> Prop
  | date d => IsPlainYear d.year
  | time micros _ => micros < 86400000000
  | timestamp d _ _ => IsPlainYear d.year
  | zoned z => IsPlainYear z.wallYear ∧ z.offset % 60 = 0

instance : DecidablePred IsPlain
  | date d => inferInstanceAs (Decidable (IsPlainYear d.year))
  | time micros _ => inferInstanceAs (Decidable (micros < 86400000000))
  | timestamp d _ _ => inferInstanceAs (Decidable (IsPlainYear d.year))
  | zoned _ => inferInstanceAs (Decidable (_ ∧ _))

end Moment

/-!
## Numbers
-/

theorem toDayNumber_bounds (d : Date) : -96700000 < d.toDayNumber ∧ d.toDayNumber < 96700000 := by
  rcases Date.isDay_iff.mp d.valid with ⟨hlow, hhigh, hday, hlength⟩
  rcases Date.exists_era d.year hday hlength with ⟨era, yearOfEra, hyears, hyear, hnumber, hlt, -⟩
  rw [Date.toDayNumber]
  have hmonth : (if d.month ≤ 2 then (1 : Int) else 0) ≤ 1 ∧
      (0 : Int) ≤ if d.month ≤ 2 then 1 else 0 := by
    split <;> decide
  omega

theorem ofMicroseconds?_add (d : Date) {micros : Nat} (h : micros < 86400000000) :
    Timestamp.ofMicroseconds? (d.toDayNumber * 86400000000 + micros) =
      some ⟨d, .ofMicroseconds micros⟩ := by
  have hday : (d.toDayNumber * 86400000000 + micros).fdiv 86400000000 = d.toDayNumber := by
    rw [Int.fdiv_eq_ediv_of_nonneg _ (by decide)]
    omega
  have hwithin : (d.toDayNumber * 86400000000 + micros).fmod 86400000000 =
      (micros : Int).fmod 86400000000 := by
    rw [Int.fmod_eq_emod_of_nonneg _ (by decide), Int.fmod_eq_emod_of_nonneg _ (by decide)]
    omega
  have htime : TimeOfDay.ofMicroseconds (d.toDayNumber * 86400000000 + micros) =
      .ofMicroseconds micros := by
    rw [TimeOfDay.ofMicroseconds, TimeOfDay.ofMicroseconds, hwithin]
  rw [Timestamp.ofMicroseconds?, hday, Date.ofDayNumber?_toDayNumber, htime]
  rfl

theorem exactly_ofInt (count : Nat) (n : Int) :
    exactly count (BigEndian.ofInt count n) = .ok (BigEndian.ofInt count n) :=
  exactly_of_length (BigEndian.length_ofInt count n)

theorem toInt_dayNumber (d : Date) :
    BigEndian.toInt (BigEndian.ofInt 4 d.toDayNumber) = d.toDayNumber := by
  have hbounds := toDayNumber_bounds d
  exact BigEndian.toInt_ofInt (by change -(2 ^ 32 : Int) ≤ _; omega)
    (by change _ < (2 ^ 32 : Int); omega)

theorem toInt_microseconds {n : Int} (hlow : -9000000000000000000 ≤ n)
    (hhigh : n ≤ 9000000000000000000) : BigEndian.toInt (BigEndian.ofInt 8 n) = n :=
  BigEndian.toInt_ofInt (by change -(2 ^ 64 : Int) ≤ _; omega)
    (by change _ < (2 ^ 64 : Int); omega)

theorem binaryElement_date (bytes : List UInt8) :
    binaryElement Oid.date bytes = exactly 4 bytes >>= fun bytes =>
      match Date.ofDayNumber? (BigEndian.toInt bytes) with
      | some date => .ok (.date date)
      | none => .error (.conversion .dateRange) := by
  rw [binaryElement]
  rfl

theorem binaryElement_time (bytes : List UInt8) :
    binaryElement Oid.time bytes = exactly 8 bytes >>= fun bytes =>
      .ok (.time (.ofMicroseconds (BigEndian.toInt bytes))) := by
  rw [binaryElement]
  rfl

theorem binaryElement_timestamp {type : Oid} (h : type = Oid.timestamp ∨ type = Oid.timestamptz)
    (bytes : List UInt8) :
    binaryElement type bytes = exactly 8 bytes >>= fun bytes =>
      match Timestamp.ofMicroseconds? (BigEndian.toInt bytes) with
      | some timestamp => .ok (.timestamp timestamp)
      | none => .error (.conversion .timestampRange) := by
  rcases h with rfl | rfl <;> rfl

theorem Moment.binaryElement_bytes (m : Moment) : binaryElement m.type m.bytes = .ok m.value := by
  cases m with
  | date d =>
      rw [type, bytes, binaryElement_date, exactly_ofInt, Result.ok_bind, toInt_dayNumber,
        Date.ofDayNumber?_toDayNumber]
      rfl
  | time micros h =>
      rw [type, bytes, binaryElement_time, exactly_ofInt, Result.ok_bind,
        toInt_microseconds (by omega) (by omega)]
      rfl
  | timestamp d micros h =>
      have hbounds := toDayNumber_bounds d
      rw [type, bytes, binaryElement_timestamp (.inl rfl), exactly_ofInt, Result.ok_bind,
        toInt_microseconds (by omega) (by omega), ofMicroseconds?_add d h]
      rfl
  | zoned z =>
      have hbounds := toDayNumber_bounds z.date
      have hmicros := z.micros_lt
      rw [type, bytes, binaryElement_timestamp (.inr rfl), exactly_ofInt, Result.ok_bind,
        toInt_microseconds (by omega) (by omega), ofMicroseconds?_add z.date hmicros]
      rfl

/-!
## Texts
-/

theorem textElement_date (text : String) :
    textElement Oid.date text = readable (Date.ofText? text) >>= fun d => .ok (.date d) := rfl

theorem textElement_time (text : String) :
    textElement Oid.time text = readable (TimeOfDay.ofText? text) >>= fun t => .ok (.time t) := rfl

theorem textElement_timestamp (text : String) :
    textElement Oid.timestamp text =
      readable (Timestamp.ofText? text) >>= fun t => .ok (.timestamp t) := rfl

theorem textElement_timestamptz (text : String) :
    textElement Oid.timestamptz text =
      readable (Timestamp.ofZonedText? text) >>= fun t => .ok (.timestamp t) := rfl

theorem readable_ite {α : Type} {p : Prop} [Decidable p] (a : α) (f : α -> Value) :
    (p -> (readable (if p then some a else none) >>= fun a => Except.ok (f a)) = .ok (f a)) ∧
      (¬ p -> exists e,
        (readable (if p then some a else none) >>= fun a => Except.ok (f a)) = .error e) := by
  constructor
  · intro h
    rw [if_pos h]
    rfl
  · intro h
    rw [if_neg h]
    exact ⟨_, rfl⟩

namespace ZonedMoment

variable (z : ZonedMoment)

theorem wallMonth_bounds : 1 ≤ z.wallMonth ∧ z.wallMonth ≤ 12 :=
  Date.month_bounds z.wallDay_pos z.wallDay_le

/-- The wall clock less the offset shows the timestamp of zone zero. -/
theorem addSeconds?_wall {wall : Date}
    (hwall : Date.ofYmd? z.wallYear z.wallMonth z.wallDay = some wall) :
    Timestamp.addSeconds? ⟨wall, .ofMicroseconds z.wallMicros⟩ (-z.offset) =
      some ⟨z.date, .ofMicroseconds z.micros⟩ := by
  have hnumber : wall.toDayNumber = Date.dayNumber z.wallYear z.wallMonth z.wallDay := by
    rw [Date.ofYmd?] at hwall
    split at hwall
    · cases hwall
      rfl
    · cases hwall
  have hparts := Reader.ofMicroseconds_parts z.wallMicros_lt
  have hmicros := z.micros_lt
  have hsame := z.same_instant
  rw [<- hnumber] at hsame
  have hday : (wall.toDayNumber * 86400 + (z.wallMicros / 1000000 : Nat) + -z.offset).fdiv 86400 =
      z.date.toDayNumber := by
    rw [Int.fdiv_eq_ediv_of_nonneg _ (by decide)]
    omega
  have hseconds : ((wall.toDayNumber * 86400 + (z.wallMicros / 1000000 : Nat) +
      -z.offset).fmod 86400).toNat = z.micros / 1000000 := by
    rw [Int.fmod_eq_emod_of_nonneg _ (by decide)]
    omega
  have hnanos : z.wallMicros % 1000000 = z.micros % 1000000 := by omega
  rw [Timestamp.addSeconds?]
  dsimp only
  rw [hparts.1, hparts.2, hday, hseconds, hnanos, Date.ofDayNumber?_toDayNumber,
    Reader.ofParts?_eq hmicros]
  rfl

/-- The text is read if the year of the wall clock is plain and the offset has no seconds. -/
theorem ofZonedText?_text :
    Timestamp.ofZonedText? (String.ofList (Moment.zoned z).text) =
      if IsPlainYear z.wallYear ∧ z.offset % 60 = 0 then
        some ⟨z.date, .ofMicroseconds z.micros⟩
      else none := by
  have hoffset := z.offset_lt
  have hread := @zoned_text z.wallYear _ _ z.wallMonth_bounds
    ⟨z.wallDay_pos, Date.day_le z.wallDay_le⟩ _ z.wallMicros_lt _ hoffset
  rw [Timestamp.ofZonedText?, Moment.text, hread]
  by_cases hplain : IsPlainYear z.wallYear ∧ z.offset % 60 = 0
  · have hvalid : isDay z.wallYear z.wallMonth z.wallDay = true := by
      rcases hplain.1 with ⟨hlow, hhigh⟩
      exact Date.isDay_iff.mpr ⟨by omega, by omega, z.wallDay_pos, z.wallDay_le⟩
    have hwall : Date.ofYmd? z.wallYear z.wallMonth z.wallDay =
        some ⟨z.wallYear, z.wallMonth, z.wallDay, hvalid⟩ := dif_pos hvalid
    rw [if_pos hplain, if_pos hplain, hwall, Option.map_some, Option.bind_eq_bind,
      Option.bind_some]
    dsimp only
    rw [if_pos (by simp only [Bool.and_eq_true, decide_eq_true_eq]; omega),
      z.addSeconds?_wall hwall]
  · rw [if_neg hplain, if_neg hplain]
    rfl

end ZonedMoment

/-- The text of a plain moment is read as the value of the number; any other text is refused. -/
theorem Moment.textElement_text (m : Moment) :
    (m.IsPlain -> textElement m.type (String.ofList m.text) = .ok m.value) ∧
      (¬ m.IsPlain -> exists e, textElement m.type (String.ofList m.text) = .error e) := by
  cases m with
  | date d =>
      rcases Date.isDay_iff.mp d.valid with ⟨-, -, hday, hlength⟩
      rw [type, text, textElement_date, Date.ofText?_text (Date.month_bounds hday hlength)
        ⟨hday, Date.day_le hlength⟩, Date.ofYmd?_self]
      exact readable_ite d Value.date
  | time micros h =>
      rw [type, text, textElement_time, TimeOfDay.ofText?_text h]
      exact readable_ite (TimeOfDay.ofMicroseconds micros) Value.time
  | timestamp d micros h =>
      rcases Date.isDay_iff.mp d.valid with ⟨-, -, hday, hlength⟩
      rw [type, text, textElement_timestamp, Timestamp.ofText?_text
        (Date.month_bounds hday hlength) ⟨hday, Date.day_le hlength⟩ h, Date.ofYmd?_self,
        Option.map_some]
      exact readable_ite _ Value.timestamp
  | zoned z =>
      rw [type, textElement_timestamptz, z.ofZonedText?_text]
      exact readable_ite _ Value.timestamp

/-!
## Agreement
-/

def Agree (r r' : Result Value) : Prop :=
  (exists v, r = .ok v ∧ r' = .ok v) ∨ (exists e, r = .error e) ∧ exists e, r' = .error e

theorem agree_iff_isPlain (m : Moment) :
    Agree (textElement m.type (String.ofList m.text)) (binaryElement m.type m.bytes) <->
      m.IsPlain := by
  rw [m.binaryElement_bytes]
  constructor
  · intro h
    by_contra hplain
    rcases m.textElement_text.2 hplain with ⟨e, he⟩
    rw [he] at h
    rcases h with ⟨v, hv, -⟩ | ⟨-, e', he'⟩
    · cases hv
    · cases he'
  · intro hplain
    exact .inl ⟨m.value, m.textElement_text.1 hplain, rfl⟩

/-- The number of a moment is always read.  Its text agrees with it if and only if the year has one
to four digits and no era, the time lies before the end of the day, and the offset of the zone has
no seconds. -/
theorem formats_agree_iff (m : Moment) :
    binaryElement m.type m.bytes = .ok m.value ∧
      (Agree (textElement m.type (String.ofList m.text)) (binaryElement m.type m.bytes) <->
        m.IsPlain) :=
  ⟨m.binaryElement_bytes, agree_iff_isPlain m⟩

def fiveDigits : Moment := .date { year := 10000, month := 1, day := 1 }

def beforeYearOne : Moment := .date { year := -43, month := 3, day := 15 }

def endOfDay : Moment := .time 86400000000 (Nat.le_refl _)

def meanTime : Moment := .zoned
  { date := { year := 1880, month := 1, day := 1 }
    micros := 43200000000
    micros_lt := by decide
    offset := -17762
    offset_lt := by decide
    wallYear := 1880
    wallMonth := 1
    wallDay := 1
    wallMicros := 25438000000
    wallDay_pos := by decide
    wallDay_le := by decide
    wallMicros_lt := by decide
    same_instant := by decide }

theorem formats_differ :
    (fiveDigits.text = "10000-01-01".toList ∧
      ¬ Agree (textElement fiveDigits.type (String.ofList fiveDigits.text))
        (binaryElement fiveDigits.type fiveDigits.bytes)) ∧
    (beforeYearOne.text = "0044-03-15 BC".toList ∧
      ¬ Agree (textElement beforeYearOne.type (String.ofList beforeYearOne.text))
        (binaryElement beforeYearOne.type beforeYearOne.bytes)) ∧
    (endOfDay.text = "24:00:00".toList ∧
      ¬ Agree (textElement endOfDay.type (String.ofList endOfDay.text))
        (binaryElement endOfDay.type endOfDay.bytes)) ∧
    meanTime.text = "1880-01-01 07:03:58-04:56:02".toList ∧
      ¬ Agree (textElement meanTime.type (String.ofList meanTime.text))
        (binaryElement meanTime.type meanTime.bytes) := by
  simp only [agree_iff_isPlain]
  decide

end Wire
end TypedQuery
