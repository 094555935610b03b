import Lyte.Domain.Errors

/-
  Lyte.Domain.Clock — datetimes and their canonical text.

  A `datetime` is its wall-clock reading, in microseconds since
  0001-01-01T00:00:00, and its UTC offset (absent when it is naive).
  `isoformatZ` is `lyte.domain.canonical.isoformat_z`: the text of the UTC
  instant.  `parseIso_isoText` says that this text determines the instant.
-/

namespace Lyte

/-! ## §1. Datetimes. -/

/-- A `datetime`: wall-clock microseconds, and the UTC offset in microseconds. -/
structure Stamp where
  wall : Int
  offset : Option Int
deriving DecidableEq

/-- 9999-12-31T23:59:59.999999, the last instant a `datetime` holds. -/
def maxMicros : Int := 3652059 * 86400000000 - 1

/-- What every `datetime` satisfies: the wall clock reads a moment of the years
1 to 9999, and the offset is strictly between -24 and 24 hours. -/
def Stamp.InRange (s : Stamp) : Prop :=
  0 ≤ s.wall ∧ s.wall ≤ maxMicros ∧
    ∀ o, s.offset = some o → -86400000000 < o ∧ o < 86400000000

/-- The instant of a datetime; a naive one is read as UTC. -/
def Stamp.instant (s : Stamp) : Int := s.wall - s.offset.getD 0

/-- A reading of `datetime.now(UTC)`. -/
structure Instant where
  micros : Int
  nonneg : 0 ≤ micros
  le_max : micros ≤ maxMicros

def Instant.stamp (t : Instant) : Stamp := ⟨t.micros, some 0⟩

/-! ## §2. Calendar. -/

/-- `_days_before_month`, with the leap day. -/
def daysBeforeMonth (leap : Bool) (month : Nat) : Nat :=
  [0, 0, 31, 59, 90, 120, 151, 181, 212, 243, 273, 304, 334].getD month 0
    + (if 2 < month && leap then 1 else 0)

def daysInMonth (leap : Bool) (month : Nat) : Nat :=
  [0, 31, 28, 31, 30, 31, 30, 31, 31, 30, 31, 30, 31].getD month 0
    + (if month == 2 && leap then 1 else 0)

def isLeap (year : Nat) : Bool := year % 4 == 0 && (year % 100 != 0 || year % 400 == 0)

/-- Month and day of the `n`-th day (from 0) of a year: the estimate
`(n + 50) >> 5` is the month or one too large. -/
def monthDay (leap : Bool) (n : Nat) : Nat × Nat :=
  let month := (n + 50) / 32
  if daysBeforeMonth leap month > n then
    (month - 1, n - (daysBeforeMonth leap month - daysInMonth leap (month - 1)) + 1)
  else (month, n - daysBeforeMonth leap month + 1)

/-- `_ord2ymd` of the day `n` (from 0): cycles of 400, 100, 4 and 1 years. -/
def ordToYmd (n : Nat) : Nat × Nat × Nat :=
  let n400 := n / 146097
  let r400 := n % 146097
  let n100 := r400 / 36524
  let r100 := r400 % 36524
  let n4 := r100 / 1461
  let r4 := r100 % 1461
  let n1 := r4 / 365
  let r1 := r4 % 365
  let year := n400 * 400 + n100 * 100 + n4 * 4 + n1 + 1
  if n1 = 4 ∨ n100 = 4 then (year - 1, 12, 31)
  else
    let leap := n1 == 3 && (n4 != 24 || n100 == 3)
    (year, monthDay leap r1)

/-- `_ymd2ord`, from 0. -/
def ymdToOrd (year month day : Nat) : Nat :=
  let y := year - 1
  y * 365 + y / 4 - y / 100 + y / 400 + daysBeforeMonth (isLeap year) month + day - 1

/-! ## §3. Text. -/

def pad2 (n : Nat) : PyStr := [48 + n / 10 % 10, 48 + n % 10]
def pad4 (n : Nat) : PyStr := pad2 (n / 100) ++ pad2 n
def pad6 (n : Nat) : PyStr := pad2 (n / 10000) ++ pad2 (n / 100) ++ pad2 n

/-- `isoformat()` of a UTC datetime, with `Z` for the offset: fractional seconds
are written only when there are any. -/
def isoText (micros : Int) : PyStr :=
  let n := micros.toNat
  let ymd := ordToYmd (n / 86400000000)
  let t := n % 86400000000
  let sec := t / 1000000
  pad4 ymd.1 ++ [45] ++ pad2 ymd.2.1 ++ [45] ++ pad2 ymd.2.2 ++ [84] ++
    pad2 (sec / 3600) ++ [58] ++ pad2 (sec / 60 % 60) ++ [58] ++ pad2 (sec % 60) ++
    (if t % 1000000 = 0 then [] else [46] ++ pad6 (t % 1000000)) ++ [90]

/-- `isoformat_z`: refuses a naive datetime, and `astimezone` overflows where
the instant has no UTC datetime. -/
def isoformatZ (s : Stamp) : Except Exn PyStr :=
  match s.offset with
  | none => .error (.valueError (py "timestamps must be timezone-aware"))
  | some o =>
    if 0 ≤ s.wall - o ∧ s.wall - o ≤ maxMicros then .ok (isoText (s.wall - o))
    else .error .overflowError

@[simp] theorem isoformatZ_instant (t : Instant) : isoformatZ t.stamp = .ok (isoText t.micros) := by
  have h := t.nonneg
  have h' := t.le_max
  simp [isoformatZ, Instant.stamp, h, h']

/-! ## §4. The text determines the instant. -/

/-- Reads back the canonical text. -/
def parseIso : PyStr → Option Int
  | [y3, y2, y1, y0, _, m1, m0, _, d1, d0, _, h1, h0, _, n1, n0, _, s1, s0, _] =>
      some (read y3 y2 y1 y0 m1 m0 d1 d0 h1 h0 n1 n0 s1 s0)
  | [y3, y2, y1, y0, _, m1, m0, _, d1, d0, _, h1, h0, _, n1, n0, _, s1, s0, _,
      f5, f4, f3, f2, f1, f0, _] =>
      some (read y3 y2 y1 y0 m1 m0 d1 d0 h1 h0 n1 n0 s1 s0
        + (two f5 f4 * 10000 + two f3 f2 * 100 + two f1 f0 : Nat))
  | _ => none
where
  two (a b : Nat) : Nat := (a - 48) * 10 + (b - 48)
  read (y3 y2 y1 y0 m1 m0 d1 d0 h1 h0 n1 n0 s1 s0 : Nat) : Int :=
    (ymdToOrd (two y3 y2 * 100 + two y1 y0) (two m1 m0) (two d1 d0) * 86400000000
      + (two h1 h0 * 3600 + two n1 n0 * 60 + two s1 s0) * 1000000 : Nat)

theorem monthDay_spec : ∀ leap : Bool, ∀ n < 366, (leap = false → n < 365) →
    daysBeforeMonth leap (monthDay leap n).1 + (monthDay leap n).2 = n + 1 ∧
      1 ≤ (monthDay leap n).1 ∧ (monthDay leap n).1 ≤ 12 ∧
      1 ≤ (monthDay leap n).2 ∧ (monthDay leap n).2 ≤ 31 := by
  decide +kernel

/-- The days before a year, in cycles. -/
theorem yearDays (a b c d : Nat) (hb : b ≤ 3) (hc : c ≤ 24) (hd : d ≤ 3) :
    (400 * a + 100 * b + 4 * c + d) * 365 + (400 * a + 100 * b + 4 * c + d) / 4
        - (400 * a + 100 * b + 4 * c + d) / 100 + (400 * a + 100 * b + 4 * c + d) / 400
      = 146097 * a + 36524 * b + 1461 * c + 365 * d := by
  have h4 : (400 * a + 100 * b + 4 * c + d) / 4 = 100 * a + 25 * b + c := by omega
  have h100 : (400 * a + 100 * b + 4 * c + d) / 100 = 4 * a + b := by omega
  have h400 : (400 * a + 100 * b + 4 * c + d) / 400 = a := by omega
  rw [h4, h100, h400]
  omega

theorem isLeap_cycle (a b c d : Nat) (hb : b ≤ 3) (hc : c ≤ 24) (hd : d ≤ 3) :
    isLeap (400 * a + 100 * b + 4 * c + d + 1) = (d == 3 && (c != 24 || b == 3)) := by
  have h4 : (400 * a + 100 * b + 4 * c + d + 1) % 4 = (d + 1) % 4 := by omega
  have h100 : (400 * a + 100 * b + 4 * c + d + 1) % 100 = (4 * c + d + 1) % 100 := by omega
  have h400 : (400 * a + 100 * b + 4 * c + d + 1) % 400 = (100 * b + 4 * c + d + 1) % 400 := by
    omega
  rw [isLeap, h4, h100, h400, Bool.eq_iff_iff]
  simp only [Bool.and_eq_true, Bool.or_eq_true, beq_iff_eq, bne_iff_ne]
  constructor
  · rintro ⟨hd3, hcb⟩
    exact ⟨by omega, by omega⟩
  · rintro ⟨rfl, hcb⟩
    exact ⟨by omega, by omega⟩

theorem ymdToOrd_cycle (a b c d month day : Nat) (hb : b ≤ 3) (hc : c ≤ 24) (hd : d ≤ 3) :
    ymdToOrd (400 * a + 100 * b + 4 * c + d + 1) month day
      = 146097 * a + 36524 * b + 1461 * c + 365 * d
        + daysBeforeMonth (d == 3 && (c != 24 || b == 3)) month + day - 1 := by
  simp only [ymdToOrd, isLeap_cycle a b c d hb hc hd, Nat.add_sub_cancel, yearDays a b c d hb hc hd]

/-- The calendar on a day split into its cycles. -/
theorem ymdToOrd_ordToYmd_cycle (a b c d r1 : Nat) (hb : b ≤ 4) (hc : c ≤ 24) (hd : d ≤ 4)
    (hb4 : b = 4 → c = 0 ∧ d = 0 ∧ r1 = 0) (hd4 : d = 4 → r1 = 0 ∧ c < 24) (hr1 : r1 < 365)
    (ymd : Nat × Nat × Nat)
    (hymd : ymd = if d = 4 ∨ b = 4 then (a * 400 + b * 100 + c * 4 + d + 1 - 1, 12, 31)
      else (a * 400 + b * 100 + c * 4 + d + 1, monthDay (d == 3 && (c != 24 || b == 3)) r1)) :
    ymdToOrd ymd.1 ymd.2.1 ymd.2.2 = 146097 * a + 36524 * b + 1461 * c + 365 * d + r1 ∧
      ymd.1 ≤ 400 * a + 100 * b + 4 * c + d + 1 ∧ ymd.2.1 ≤ 12 ∧ ymd.2.2 ≤ 31 := by
  by_cases hlast : d = 4 ∨ b = 4
  · -- the last day of a leap year: the cycles overshoot by one year
    rw [if_pos hlast] at hymd
    subst hymd
    refine ⟨?_, by simp only []; omega, Nat.le_refl 12, Nat.le_refl 31⟩
    by_cases hb' : b = 4
    · obtain ⟨rfl, rfl, rfl⟩ := hb4 hb'
      subst hb'
      have hy : a * 400 + 4 * 100 + 0 * 4 + 0 + 1 - 1 = 400 * a + 100 * 3 + 4 * 24 + 3 + 1 := by omega
      have hdays : daysBeforeMonth (3 == 3 && (24 != 24 || 3 == 3)) 12 = 335 := rfl
      rw [hy, ymdToOrd_cycle a 3 24 3 12 31 (by decide) (by decide) (by decide), hdays]
      omega
    · obtain rfl : d = 4 := by omega
      obtain ⟨rfl, hc'⟩ := hd4 rfl
      have hy : a * 400 + b * 100 + c * 4 + 4 + 1 - 1 = 400 * a + 100 * b + 4 * c + 3 + 1 := by omega
      have hne : c ≠ 24 := by omega
      have hdays : daysBeforeMonth (3 == 3 && (c != 24 || b == 3)) 12 = 335 := by
        simp [daysBeforeMonth, hne]
      rw [hy, ymdToOrd_cycle a b c 3 12 31 (by omega) hc (by decide), hdays]
      omega
  · rw [if_neg hlast] at hymd
    subst hymd
    obtain ⟨hsum, _, hm, _, hdd⟩ :=
      monthDay_spec (d == 3 && (c != 24 || b == 3)) r1 (by omega) (fun _ => hr1)
    have hy : a * 400 + b * 100 + c * 4 + d + 1 = 400 * a + 100 * b + 4 * c + d + 1 := by omega
    refine ⟨?_, by simp only []; omega, hm, hdd⟩
    rw [hy, ymdToOrd_cycle a b c d _ _ (by omega) hc (by omega)]
    simp only []
    omega

/-- **The calendar loses nothing** on the days a `datetime` can hold. -/
theorem ymdToOrd_ordToYmd (n : Nat) (h : n < 3652059) :
    ymdToOrd (ordToYmd n).1 (ordToYmd n).2.1 (ordToYmd n).2.2 = n ∧
      (ordToYmd n).1 < 10000 ∧ (ordToYmd n).2.1 ≤ 12 ∧ (ordToYmd n).2.2 ≤ 31 := by
  have h1 := Nat.div_add_mod n 146097
  have l1 : n % 146097 < 146097 := Nat.mod_lt _ (by decide)
  have h2 := Nat.div_add_mod (n % 146097) 36524
  have l2 : n % 146097 % 36524 < 36524 := Nat.mod_lt _ (by decide)
  have h3 := Nat.div_add_mod (n % 146097 % 36524) 1461
  have l3 : n % 146097 % 36524 % 1461 < 1461 := Nat.mod_lt _ (by decide)
  have h4 := Nat.div_add_mod (n % 146097 % 36524 % 1461) 365
  have l4 : n % 146097 % 36524 % 1461 % 365 < 365 := Nat.mod_lt _ (by decide)
  obtain ⟨ymd, hymd⟩ : ∃ ymd, ymd = ordToYmd n := ⟨_, rfl⟩
  rw [← hymd]
  simp only [ordToYmd] at hymd
  generalize n / 146097 = a at *
  generalize n % 146097 = r400 at *
  generalize r400 / 36524 = b at *
  generalize r400 % 36524 = r100 at *
  generalize r100 / 1461 = c at *
  generalize r100 % 1461 = r4 at *
  generalize r4 / 365 = d at *
  generalize r4 % 365 = r1 at *
  obtain ⟨hord, hy, hm, hd⟩ := ymdToOrd_ordToYmd_cycle a b c d r1 (by omega) (by omega) (by omega)
    (by omega) (by omega) l4 ymd hymd
  refine ⟨by omega, ?_, hm, hd⟩
  have ha : a ≤ 23 ∨ a = 24 := by omega
  have hb : b ≤ 4 := by omega
  have hc : c ≤ 24 := by omega
  have hd' : d ≤ 4 := by omega
  rcases ha with ha | rfl
  · omega
  · have hb' : b ≤ 2 ∨ b = 3 := by omega
    rcases hb' with hb' | rfl
    · omega
    · have hc' : c ≤ 23 ∨ c = 24 := by omega
      rcases hc' with hc' | rfl <;> omega

@[simp] theorem two_pad2 (n : Nat) : parseIso.two (48 + n / 10 % 10) (48 + n % 10) = n % 100 := by
  simp only [parseIso.two]
  omega

/-- **The canonical text determines the instant.** -/
theorem parseIso_isoText {micros : Int} (h : 0 ≤ micros) (hmax : micros ≤ maxMicros) :
    parseIso (isoText micros) = some micros := by
  obtain ⟨n, rfl⟩ : ∃ n : Nat, micros = n := ⟨micros.toNat, by omega⟩
  have hn : n / 86400000000 < 3652059 := by simp only [maxMicros] at hmax; omega
  obtain ⟨hord, hy, hm, hd⟩ := ymdToOrd_ordToYmd _ hn
  simp only [isoText, Int.toNat_natCast]
  generalize ordToYmd (n / 86400000000) = ymd at hord hy hm hd
  have hyy : ymd.1 / 100 % 100 * 100 + ymd.1 % 100 = ymd.1 := by omega
  have hmm : ymd.2.1 % 100 = ymd.2.1 := by omega
  have hdd : ymd.2.2 % 100 = ymd.2.2 := by omega
  split
  · next hf =>
    simp only [pad4, pad2, List.cons_append, List.nil_append, parseIso, parseIso.read,
      two_pad2, hyy, hmm, hdd, hord, Option.some.injEq]
    omega
  · next hf =>
    simp only [pad4, pad6, pad2, List.cons_append, List.nil_append, parseIso, parseIso.read,
      two_pad2, hyy, hmm, hdd, hord, Option.some.injEq]
    omega

end Lyte
