import BusTub.Type.Cast

/-!
# Timestamps

The cast of a text to a TIMESTAMP packs the fields of the text into 64 bits, in a mixed radix:
month, day, zone, year, seconds of the day and microseconds.  `ToString` takes them apart again.
The place of the zone has 27 values, for the zones from -12 to 14.  The cast rejects zones above
26 only, so that it packs zones that do not fit.
-/

namespace BusTub

structure TimestampFields where
  year : ℕ
  month : ℕ
  day : ℕ
  hour : ℕ
  min : ℕ
  sec : ℕ
  micro : ℕ
  tz : ℤ
deriving DecidableEq

/-- What the cast throws: "Timestamp format error.", or "Timestamp value out of range." -/
inductive TimestampFault
  | format
  | outOfRange
deriving DecidableEq

namespace Timestamp

def withFraction (text : List UInt8) : List UInt8 :=
  if text.length = 22 then text.take 19 ++ ascii ".000000" ++ (text.drop 19).take 3 else text

/-- The tests of the format: the length, the separators and the sign, and digits elsewhere. -/
def formatted (str : List UInt8) : Bool :=
  str.length = 29 && [(10, 32), (4, 45), (7, 45), (13, 58), (16, 58), (19, 46)].all
    (fun (place, separator) => str[place]? = some separator) &&
  (str[26]? = some 43 || str[26]? = some 45) &&
  str.zipIdx.all fun (byte, place) => [4, 7, 10, 13, 16, 19, 26].contains place || isDigit byte

/-- The number that `sscanf` reads at a place. -/
def scan (str : List UInt8) (place count : ℕ) : ℕ :=
  (readDigits ((str.drop place).take count)).getD 0

/-- `sscanf` on a text with the right format, where it finds all eight fields. -/
def scanFields (str : List UInt8) : TimestampFields where
  year := scan str 0 4
  month := scan str 5 2
  day := scan str 8 2
  hour := scan str 11 2
  min := scan str 14 2
  sec := scan str 17 2
  micro := scan str 20 6
  tz := if str[26]? = some 45 then -(scan str 27 2 : ℤ) else scan str 27 2

def fieldsOf (text : List UInt8) : TimestampFields := scanFields (withFraction text)

/-- The table `max_day`, or `max_day_lunar` in a leap year. -/
def maxDay (year month : ℕ) : ℕ :=
  if month = 2 then
    if year % 4 = 0 ∧ year % 100 ≠ 0 ∨ year % 400 = 0 then 29 else 28
  else if month = 4 ∨ month = 6 ∨ month = 9 ∨ month = 11 then 30 else 31

def InRange (fields : TimestampFields) : Prop :=
  fields.year ≤ 9999 ∧ fields.month ≤ 12 ∧ fields.day ≤ 31 ∧ fields.hour ≤ 23 ∧
    fields.min ≤ 59 ∧ fields.sec ≤ 59 ∧ fields.micro ≤ 999999 ∧ fields.day ≠ 0 ∧
    fields.month ≠ 0 ∧ fields.day ≤ maxDay fields.year fields.month

instance (fields : TimestampFields) : Decidable (InRange fields) := by
  unfold InRange
  infer_instance

/-- `res *= radix; res += digit` on a `uint64_t`. -/
def shiftIn (res radix digit : ℕ) : ℕ := (res * radix % 2 ^ 64 + digit) % 2 ^ 64

/-- The packed fields; the zone is a `uint32_t`. -/
def pack (fields : TimestampFields) : ℕ :=
  let timezone := ((fields.tz + 12) % 2 ^ 32).toNat
  let res := shiftIn fields.month 32 fields.day
  let res := shiftIn res 27 timezone
  let res := shiftIn res 10000 fields.year
  let res := shiftIn res 100000 (fields.hour * 3600 + fields.min * 60 + fields.sec)
  shiftIn res 1000000 fields.micro

/-- The case VARCHAR of `CastAsTimestamp`. -/
def castAsTimestamp (text : List UInt8) : Except TimestampFault ℕ :=
  if formatted (withFraction text) then
    let fields := fieldsOf text
    if InRange fields then if 26 < fields.tz then .error .format else .ok (pack fields)
    else .error .outOfRange
  else .error .format

/-- The arithmetic of `TimestampType::ToString`; of the casts to `uint16_t` only that of the
month can cut something off. -/
def unpack (tm : ℕ) : TimestampFields :=
  let second := tm / 1000000 % 100000
  let date := tm / 1000000 / 100000
  { micro := tm % 1000000
    sec := second % 60
    min := second / 60 % 60
    hour := second / 60 / 60 % 24
    year := date % 10000
    tz := (date / 10000 % 27 : ℕ) - 12
    day := date / 10000 / 27 % 32
    month := date / 10000 / 27 / 32 % 2 ^ 16 }

/-- A text is rejected, or its zone fits and unpacking gives its fields back. -/
def RoundTrips (text : List UInt8) : Prop :=
  ∀ tm, castAsTimestamp text = .ok tm →
    -12 ≤ (fieldsOf text).tz ∧ (fieldsOf text).tz ≤ 14 ∧ unpack tm = fieldsOf text

theorem castAsTimestamp_eq_ok_iff (text : List UInt8) (tm : ℕ) :
    castAsTimestamp text = .ok tm ↔
      formatted (withFraction text) ∧ InRange (fieldsOf text) ∧ (fieldsOf text).tz ≤ 26 ∧
        pack (fieldsOf text) = tm := by
  unfold castAsTimestamp
  by_cases hformat : formatted (withFraction text) = true
  · by_cases hrange : InRange (fieldsOf text)
    · by_cases hzone : 26 < (fieldsOf text).tz
      · simp [hformat, hrange, hzone]
      · simp [hformat, hrange, hzone, not_lt.mp hzone]
    · simp [hformat, hrange]
  · simp [hformat]

theorem shiftIn_eq {res radix digit : ℕ} (h : res * radix + digit < 2 ^ 64) :
    shiftIn res radix digit = res * radix + digit := by
  rw [shiftIn, Nat.mod_eq_of_lt (show res * radix < 2 ^ 64 by omega), Nat.mod_eq_of_lt h]

theorem pack_eq {fields : TimestampFields} (hrange : InRange fields)
    (hlower : -12 ≤ fields.tz) (hupper : fields.tz ≤ 14) :
    pack fields = ((((fields.month * 32 + fields.day) * 27 + (fields.tz + 12).toNat) * 10000 +
      fields.year) * 100000 + (fields.hour * 3600 + fields.min * 60 + fields.sec)) * 1000000 +
      fields.micro := by
  obtain ⟨hyear, hmonth, hday, hhour, hmin, hsec, hmicro, -⟩ := hrange
  have hzone : (fields.tz + 12) % 2 ^ 32 = fields.tz + 12 :=
    Int.emod_eq_of_lt (by omega) (by omega)
  simp (disch := omega) only [pack, hzone, shiftIn_eq]

theorem shifted_div {rest radix digit : ℕ} (h : digit < radix) :
    (rest * radix + digit) / radix = rest := by
  rw [Nat.add_comm, Nat.add_mul_div_right _ _ (Nat.zero_lt_of_lt h), Nat.div_eq_of_lt h,
    Nat.zero_add]

theorem shifted_mod {rest radix digit : ℕ} (h : digit < radix) :
    (rest * radix + digit) % radix = digit := by
  rw [Nat.mul_add_mod_self_right, Nat.mod_eq_of_lt h]

theorem unpack_pack {fields : TimestampFields} (hrange : InRange fields)
    (hlower : -12 ≤ fields.tz) (hupper : fields.tz ≤ 14) : unpack (pack fields) = fields := by
  rw [pack_eq hrange hlower hupper]
  obtain ⟨year, month, day, hour, min, sec, micro, tz⟩ := fields
  obtain ⟨hyear, hmonth, hday, hhour, hmin, hsec, hmicro, -⟩ := hrange
  dsimp only at *
  -- the places are taken off one after the other
  simp (disch := omega) only [unpack, shifted_div, shifted_mod, TimestampFields.mk.injEq,
    true_and]
  omega

/-- **Timestamps.**  The cast and `ToString` are inverse on a text if and only if the zone of
a text that has the right format, with the other fields in range, is from -12 to 14 or above
26, where it is rejected. -/
theorem timestamp_roundTrips_iff (text : List UInt8) :
    RoundTrips text ↔
      (formatted (withFraction text) → InRange (fieldsOf text) →
        -12 ≤ (fieldsOf text).tz ∧ (fieldsOf text).tz ≤ 14 ∨ 26 < (fieldsOf text).tz) := by
  constructor
  · intro h hformat hrange
    by_cases hzone : 26 < (fieldsOf text).tz
    · exact .inr hzone
    · have hcast := (castAsTimestamp_eq_ok_iff text _).mpr
        ⟨hformat, hrange, not_lt.mp hzone, rfl⟩
      obtain ⟨hlower, hupper, -⟩ := h _ hcast
      exact .inl ⟨hlower, hupper⟩
  · intro h tm hcast
    obtain ⟨hformat, hrange, hzone, rfl⟩ := (castAsTimestamp_eq_ok_iff text tm).mp hcast
    obtain ⟨hlower, hupper⟩ := (h hformat hrange).resolve_right (not_lt.mpr hzone)
    exact ⟨hlower, hupper, unpack_pack hrange hlower hupper⟩

/-- Zone 20 goes into the place of the day: the text is read back as zone -7 of the next
day. -/
theorem castAsTimestamp_zone_twenty :
    castAsTimestamp (ascii "2023-01-02 03:04:05.000006+20") = .ok 950202311045000006 ∧
      fieldsOf (ascii "2023-01-02 03:04:05.000006+20") = ⟨2023, 1, 2, 3, 4, 5, 6, 20⟩ ∧
      unpack 950202311045000006 = ⟨2023, 1, 3, 3, 4, 5, 6, -7⟩ := by
  decide +kernel

end Timestamp

end BusTub
