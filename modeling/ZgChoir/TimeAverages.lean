import ZgChoir.HeartbeatTiming
import ZgChoir.Runs
import ZgChoir.Windows

/-!
# The averages of a time averager

A `ZGTimeAverager` answers with two averages of its last measurements.  The
raw one rests on a running total, which saturates, and from which a
measurement is taken away again when it drops out of the window.  The other
one leaves out what lies farther from the raw average than the standard
deviation, and is cached until the next measurement.

A total that has saturated once is wrong from then on, and squared distances
that do not fit into 64 bits make every measurement an outlier.  As long as
neither happens, the averages are those of the window
(`averages_of_windowsFit`).

The square root is taken as exact.  The signed subtraction wraps around, as it
does on the machines that the code runs on.
-/

namespace ZgChoir.ZGTimeAverager

/-! ## The code -/

/-- `SaturatingUnsignedMultiply` -/
def saturatingUnsignedMultiply (a b : UInt64) : UInt64 :=
  if a.toNat * b.toNat < 2 ^ 64 then a * b else 0xffffffffffffffff

/-- `muscleAbs` -/
def muscleAbs (a : Int64) : Int64 := if a < 0 then -a else a

/-- `GetRawAverageValue` -/
def getRawAverageValue (averager : ZGTimeAverager) : UInt64 :=
  if averager.measurements.isEmpty then 0
  else averager.totalMicros / .ofNat averager.measurements.length

/-- How far a measurement is from the average, in the arithmetic of the
code. -/
def deviation (rawAverage : Int64) (m : UInt64) : Int64 :=
  muscleAbs (m.toInt64 - rawAverage)

/-- The first loop of `GetAverageValueIgnoringOutliersAux`. -/
def sumOfDiffs (rawAverage : Int64) (measurements : List UInt64) : UInt64 :=
  measurements.foldl (fun sum m =>
    let diff := (deviation rawAverage m).toUInt64
    saturatingUnsignedAdd sum (saturatingUnsignedMultiply diff diff)) 0

/-- The standard deviation, rounded down: the largest number whose square,
times the number of the measurements, is not above the sum. -/
def maxDelta (sumOfDiffs : UInt64) (numItems : ℕ) : Int64 :=
  .ofNat (Nat.sqrt (sumOfDiffs.toNat / numItems))

/-- The measurements that are no outliers. -/
def withoutOutliers (averager : ZGTimeAverager) : List UInt64 :=
  let rawAverage := averager.getRawAverageValue.toInt64
  averager.measurements.filter fun m =>
    decide (deviation rawAverage m ≤
      maxDelta (sumOfDiffs rawAverage averager.measurements)
        averager.measurements.length)

/-- `GetAverageValueIgnoringOutliersAux` -/
def getAverageValueIgnoringOutliersAux (averager : ZGTimeAverager) : UInt64 :=
  if averager.measurements.isEmpty then 0
  else
    let newSum := averager.withoutOutliers.sum
    let newCount := averager.withoutOutliers.length
    if 0 < newCount then newSum / .ofNat newCount else 0

/-- An averager with its cache, and all the measurements that have been added
to it since it was cleared. -/
structure Cached where
  averager : ZGTimeAverager
  cachedAverageWithoutOutliers : UInt64
  added : List UInt64

/-- Nothing is cached. -/
def Cached.new : Cached := ⟨.new, 0xffffffffffffffff, []⟩

/-- `GetAverageValueIgnoringOutliers` -/
def Cached.getAverageValueIgnoringOutliers (c : Cached) : UInt64 × Cached :=
  let average :=
    if c.cachedAverageWithoutOutliers = 0xffffffffffffffff then
      c.averager.getAverageValueIgnoringOutliersAux
    else c.cachedAverageWithoutOutliers
  (average, { c with cachedAverageWithoutOutliers := average })

/-- What is done with an averager. -/
inductive AveragerEvent where
  | addMeasurement (newMeasurementMicros : UInt64) (now : ℕ)
  | getAverageValueIgnoringOutliers
  | clear

/-- One call; `maxMeasurements` is the size of the window. -/
def averagerStep (maxMeasurements : UInt32) (c : Cached) :
    AveragerEvent → Cached
  | .addMeasurement newMeasurementMicros now =>
      { averager := c.averager.addMeasurement maxMeasurements.toNat
          newMeasurementMicros now
        cachedAverageWithoutOutliers := 0xffffffffffffffff
        added := c.added ++ [newMeasurementMicros] }
  | .getAverageValueIgnoringOutliers => c.getAverageValueIgnoringOutliers.2
  | .clear => .new

/-! ## Sums that saturate -/

theorem toNat_saturatingUnsignedAdd (a b : UInt64) :
    (saturatingUnsignedAdd a b).toNat =
      min (a.toNat + b.toNat) (2 ^ 64 - 1) := by
  have ha := a.toNat_lt
  have hb := b.toNat_lt
  have hmax : UInt64.toNat 0xffffffffffffffff = 2 ^ 64 - 1 := rfl
  unfold saturatingUnsignedAdd
  split
  · next hwraps =>
    rw [UInt64.lt_iff_toNat_lt, UInt64.toNat_add] at hwraps
    rw [hmax]
    omega
  · next hfits =>
    rw [UInt64.lt_iff_toNat_lt, UInt64.toNat_add] at hfits
    rw [UInt64.toNat_add]
    omega

theorem toNat_saturatingUnsignedMultiply (a b : UInt64) :
    (saturatingUnsignedMultiply a b).toNat =
      min (a.toNat * b.toNat) (2 ^ 64 - 1) := by
  unfold saturatingUnsignedMultiply
  split
  · next hfits =>
    rw [UInt64.toNat_mul, Nat.mod_eq_of_lt hfits]
    omega
  · next hfits =>
    have hmax : UInt64.toNat 0xffffffffffffffff = 2 ^ 64 - 1 := rfl
    rw [hmax]
    omega

/-- The first loop adds up the squares, as far as 64 bits go. -/
theorem toNat_sumOfDiffs (rawAverage : Int64) (ms : List UInt64) :
    (sumOfDiffs rawAverage ms).toNat =
      min (ms.map fun m => (deviation rawAverage m).toUInt64.toNat ^ 2).sum
        (2 ^ 64 - 1) := by
  induction ms using List.reverseRecOn with
  | nil => rfl
  | append_singleton ms m ih =>
      rw [sumOfDiffs, List.foldl_append] at *
      simp only [List.foldl_cons, List.foldl_nil, List.map_append,
        List.sum_append, List.map_cons, List.map_nil, List.sum_singleton]
      rw [toNat_saturatingUnsignedAdd, toNat_saturatingUnsignedMultiply, ih,
        ← Nat.pow_two]
      omega

/-! ## The window -/

/-- What the measurements add up to. -/
def total (ms : List UInt64) : ℕ := (ms.map UInt64.toNat).sum

/-- Their average, rounded down. -/
def average (ms : List UInt64) : ℕ := total ms / ms.length

/-- How far a measurement is from their average. -/
def distance (ms : List UInt64) (m : UInt64) : ℕ :=
  ((m.toNat : ℤ) - average ms).natAbs

/-- The sum of a window fits into 64 bits, and so does the squared distance of
some measurement, as often as there are measurements; the latter does not
matter if there is a 0. -/
def Fits (ms : List UInt64) : Prop :=
  total ms < 2 ^ 64 ∧
    (0 ∈ ms ∨ ∃ m ∈ ms, ms.length * distance ms m ^ 2 < 2 ^ 64)

instance decidableFits (ms : List UInt64) : Decidable (Fits ms) :=
  inferInstanceAs (Decidable (_ ∧ (_ ∨ _)))

/-- The loop leaves the last measurements, and what they add up to. -/
theorem removeOldMeasurements_spec {n : ℕ} (hn : 0 < n) (ms : List UInt64) :
    ∀ t : UInt64, t.toNat = total ms →
      (removeOldMeasurements n ms t).1 = ms.rtake (n - 1) ∧
      (removeOldMeasurements n ms t).2.toNat = total (ms.rtake (n - 1)) := by
  induction ms with
  | nil =>
      intro t ht
      rw [List.rtake, List.drop_nil]
      exact ⟨rfl, ht⟩
  | cons old ms ih =>
      intro t ht
      have hcons : total (old :: ms) = old.toNat + total ms := rfl
      unfold removeOldMeasurements
      split
      · next hfull =>
        have hdrop : (old :: ms).rtake (n - 1) = ms.rtake (n - 1) := by
          have hlen : (old :: ms).length - (n - 1) =
              (ms.length - (n - 1)) + 1 := by
            rw [List.length_cons]
            omega
          rw [List.rtake, hlen, List.drop_succ_cons, List.rtake]
        rw [hdrop]
        refine ih _ ?_
        split
        · next hlt =>
          have hle : old ≤ t := UInt64.le_of_lt hlt
          rw [UInt64.toNat_sub_of_le t old hle]
          omega
        · next hle =>
          rw [UInt64.lt_iff_toNat_lt] at hle
          have hzero : UInt64.toNat 0 = 0 := rfl
          omega
      · next hroom =>
        have hall : (old :: ms).rtake (n - 1) = old :: ms := by
          have hlen : (old :: ms).length - (n - 1) = 0 := by
            rw [List.length_cons]
            omega
          rw [List.rtake, hlen, List.drop_zero]
        rw [hall]
        exact ⟨rfl, ht⟩

/-! ## The averages of a window that fits -/

/-- A 64-bit number that is small is the same with a sign. -/
theorem toInt_eq_toNat {a : Int64} (h : a.toUInt64.toNat < 2 ^ 63) :
    a.toInt = a.toUInt64.toNat :=
  BitVec.toInt_eq_toNat_of_lt (by
    have hbits : a.toBitVec.toNat = a.toUInt64.toNat := rfl
    omega)

/-- The absolute value is right where the number has one. -/
theorem toInt_muscleAbs {a : Int64} (h : a.toInt.natAbs < 2 ^ 63) :
    (muscleAbs a).toInt = a.toInt.natAbs := by
  have hzero : Int64.toInt 0 = 0 := rfl
  unfold muscleAbs
  split
  · next hneg =>
    rw [Int64.lt_iff_toInt_lt, hzero] at hneg
    rw [Int64.toInt_neg, Int.bmod_eq_of_le (by omega) (by omega)]
    omega
  · next hpos =>
    rw [Int64.lt_iff_toInt_lt, hzero] at hpos
    omega

/-- Close to the average, the arithmetic of the code is exact. -/
theorem deviation_of_close {raw m : UInt64}
    (h : ((m.toNat : ℤ) - raw.toNat).natAbs < 2 ^ 63) :
    (deviation raw.toInt64 m).toUInt64.toNat =
      ((m.toNat : ℤ) - raw.toNat).natAbs := by
  have hm : m.toInt64.toInt = (m.toNat : ℤ).bmod (2 ^ 64) :=
    BitVec.toInt_eq_toNat_bmod _
  have hraw : raw.toInt64.toInt = (raw.toNat : ℤ).bmod (2 ^ 64) :=
    BitVec.toInt_eq_toNat_bmod _
  have hdiff : (m.toInt64 - raw.toInt64).toInt = (m.toNat : ℤ) - raw.toNat := by
    rw [Int64.toInt_sub, hm, hraw, Int.bmod_sub_bmod, Int.sub_bmod_bmod]
    exact Int.bmod_eq_of_le (by omega) (by omega)
  have hdeviation : (deviation raw.toInt64 m).toInt =
      ((m.toNat : ℤ) - raw.toNat).natAbs := by
    rw [deviation, toInt_muscleAbs (by rwa [hdiff]), hdiff]
  have hnonneg : 0 ≤ deviation raw.toInt64 m := by
    rw [Int64.le_iff_toInt_le, hdeviation]
    exact Int.natCast_nonneg _
  rw [Int64.toNat_toUInt64_of_le hnonneg, Int64.toNatClampNeg, hdeviation]
  rfl

theorem toNat_getRawAverageValue {averager : ZGTimeAverager}
    (hlen : averager.measurements.length < 2 ^ 32)
    (htotal : averager.totalMicros.toNat = total averager.measurements)
    (hne : averager.measurements ≠ []) :
    averager.getRawAverageValue.toNat = average averager.measurements := by
  have hsize : averager.measurements.length < UInt64.size := by
    have hbig : UInt64.size = 2 ^ 64 := rfl
    omega
  rw [getRawAverageValue, if_neg (by simpa using hne), UInt64.toNat_div,
    UInt64.toNat_ofNat_of_lt' hsize, htotal, average]

/-- Some measurement is at most the average, and some is at least that. -/
theorem average_between {ms : List UInt64} (hne : ms ≠ []) :
    (∃ m ∈ ms, m.toNat ≤ average ms) ∧ ∃ m ∈ ms, average ms ≤ m.toNat := by
  have hpos : 0 < ms.length := List.length_pos_iff.mpr hne
  constructor
  · by_contra habove
    have hall : ∀ x ∈ ms.map UInt64.toNat, average ms + 1 ≤ x := by
      intro x hx
      obtain ⟨m, hm, rfl⟩ := List.mem_map.mp hx
      by_contra hle
      exact habove ⟨m, hm, by omega⟩
    have hsum := List.card_nsmul_le_sum _ _ hall
    rw [List.length_map, smul_eq_mul] at hsum
    have hlt : total ms < ms.length * (average ms + 1) :=
      Nat.lt_mul_div_succ _ hpos
    exact absurd hsum (Nat.not_le.mpr hlt)
  · by_contra hbelow
    have hlt : ∀ m ∈ ms, m.toNat < average ms := by
      intro m hm
      by_contra hle
      exact hbelow ⟨m, hm, by omega⟩
    have hall : ∀ x ∈ ms.map UInt64.toNat, x ≤ average ms - 1 := by
      intro x hx
      obtain ⟨m, hm, rfl⟩ := List.mem_map.mp hx
      exact Nat.le_sub_one_of_lt (hlt m hm)
    have hsum := List.sum_le_card_nsmul _ _ hall
    rw [List.length_map, smul_eq_mul] at hsum
    have hone : 0 < average ms :=
      Nat.zero_lt_of_lt (hlt _ (List.head_mem hne))
    have hless : ms.length * (average ms - 1) < ms.length * average ms :=
      Nat.mul_lt_mul_of_pos_left (by omega) hpos
    have hle : ms.length * average ms ≤ total ms := Nat.mul_div_le _ _
    exact absurd hsum (Nat.not_le.mpr (hless.trans_le hle))

/-- The measurement that lies closest is not further away than the mean. -/
theorem exists_closest {averager : ZGTimeAverager}
    (hne : averager.measurements ≠ []) :
    let square := fun m =>
      (deviation averager.getRawAverageValue.toInt64 m).toUInt64.toNat ^ 2
    ∃ a ∈ averager.measurements,
      (∀ b ∈ averager.measurements, square a ≤ square b) ∧
      averager.measurements.length * square a ≤
        (averager.measurements.map square).sum := by
  intro square
  obtain ⟨a, ha, hmin⟩ := averager.measurements.toFinset.exists_min_image
    square (List.toFinset_nonempty_iff _ |>.mpr hne)
  have hle : ∀ b ∈ averager.measurements, square a ≤ square b := fun b hb =>
    hmin b (by simpa using hb)
  refine ⟨a, by simpa using ha, hle, ?_⟩
  have hall : ∀ x ∈ averager.measurements.map square, square a ≤ x := by
    intro x hx
    obtain ⟨b, hb, rfl⟩ := List.mem_map.mp hx
    exact hle b hb
  have hsum := List.card_nsmul_le_sum _ _ hall
  rwa [List.length_map, smul_eq_mul] at hsum

/-- The standard deviation, as a bound. -/
theorem le_maxDelta {a : Int64} {sum : UInt64} {n : ℕ} (hn : 0 < n)
    (ha : a.toUInt64.toNat < 2 ^ 63)
    (hsum : n * a.toUInt64.toNat ^ 2 ≤ sum.toNat) : a ≤ maxDelta sum n := by
  have hsqrt : a.toUInt64.toNat ≤ Nat.sqrt (sum.toNat / n) := by
    rw [Nat.le_sqrt', Nat.le_div_iff_mul_le hn, Nat.mul_comm]
    exact hsum
  have hroot : Nat.sqrt (sum.toNat / n) < 2 ^ 32 := by
    rw [Nat.sqrt_lt']
    have hsum := sum.toNat_lt
    have hdiv := Nat.div_le_self sum.toNat n
    omega
  rw [Int64.le_iff_toInt_le, toInt_eq_toNat ha, maxDelta,
    Int64.toInt_ofNat_of_lt (by omega)]
  exact Int.ofNat_le.mpr hsqrt

/-- **Something is left** without the outliers, where a squared distance
fits. -/
theorem withoutOutliers_ne_nil {averager : ZGTimeAverager} {m : UInt64}
    (hlen : averager.measurements.length < 2 ^ 32)
    (htotal : averager.totalMicros.toNat = total averager.measurements)
    (hm : m ∈ averager.measurements)
    (hfits : averager.measurements.length *
      distance averager.measurements m ^ 2 < 2 ^ 64) :
    averager.withoutOutliers ≠ [] := by
  have hne : averager.measurements ≠ [] := List.ne_nil_of_mem hm
  have hpos : 0 < averager.measurements.length := List.length_pos_iff.mpr hne
  have hraw := toNat_getRawAverageValue hlen htotal hne
  have hone : distance averager.measurements m ^ 2 ≤
      averager.measurements.length * distance averager.measurements m ^ 2 :=
    Nat.le_mul_of_pos_left _ hpos
  have hsmall : distance averager.measurements m < 2 ^ 32 := by
    by_contra hbig
    have hsquare : (2 ^ 32) ^ 2 ≤ distance averager.measurements m ^ 2 :=
      Nat.pow_le_pow_left (by omega) 2
    omega
  have hdeviation : (deviation averager.getRawAverageValue.toInt64
      m).toUInt64.toNat = distance averager.measurements m := by
    rw [deviation_of_close (by rw [hraw]; unfold distance at hsmall; omega),
      hraw, distance]
  -- the measurement that lies closest is no outlier
  obtain ⟨a, ha, hmin, hmean⟩ := exists_closest hne
  have hclosest := hmin m hm
  dsimp only at hclosest hmean
  rw [hdeviation] at hclosest
  have hfew : averager.measurements.length * (deviation
      averager.getRawAverageValue.toInt64 a).toUInt64.toNat ^ 2 ≤
        2 ^ 64 - 1 := by
    have hle := Nat.mul_le_mul_left averager.measurements.length hclosest
    omega
  have hlow : (deviation averager.getRawAverageValue.toInt64
      a).toUInt64.toNat < 2 ^ 63 := by
    have hle : (deviation averager.getRawAverageValue.toInt64
        a).toUInt64.toNat < 2 ^ 32 := by
      refine lt_of_pow_lt_pow_left₀ 2 (by omega) ?_
      omega
    omega
  have hkept : deviation averager.getRawAverageValue.toInt64 a ≤
      maxDelta (sumOfDiffs averager.getRawAverageValue.toInt64
        averager.measurements) averager.measurements.length := by
    refine le_maxDelta hpos hlow ?_
    rw [toNat_sumOfDiffs]
    exact Nat.le_min.mpr ⟨hmean, hfew⟩
  refine List.ne_nil_of_mem (a := a) ?_
  rw [withoutOutliers, List.mem_filter]
  exact ⟨ha, decide_eq_true hkept⟩

theorem total_le_of_sublist {ms ms' : List UInt64} (h : ms.Sublist ms') :
    total ms ≤ total ms' :=
  List.Sublist.sum_le_sum (h.map _) fun _ _ => Nat.zero_le _

/-- A sum that fits does not wrap around. -/
theorem toNat_sum {ms : List UInt64} (h : total ms < 2 ^ 64) :
    ms.sum.toNat = total ms := by
  induction ms with
  | nil => rfl
  | cons m ms ih =>
      have hcons : total (m :: ms) = m.toNat + total ms := rfl
      rw [List.sum_cons, UInt64.toNat_add, ih (by omega), hcons,
        Nat.mod_eq_of_lt (by omega)]

/-- What the averages of the measurements in a window are to be. -/
structure AveragesOf (window : List UInt64) (rawAverage average' : UInt64) :
    Prop where
  raw : rawAverage.toNat = average window
  lower : ∃ m ∈ window, m ≤ average'
  upper : ∃ m ∈ window, average' ≤ m

/-- The second average is that of the measurements that are no outliers, or
0. -/
theorem toNat_getAverageValueIgnoringOutliersAux {averager : ZGTimeAverager}
    (hlen : averager.measurements.length < 2 ^ 32)
    (hsum : total averager.measurements < 2 ^ 64)
    (hne : averager.measurements ≠ []) :
    averager.getAverageValueIgnoringOutliersAux.toNat =
      average averager.withoutOutliers := by
  have hsub : averager.withoutOutliers.Sublist averager.measurements :=
    List.filter_sublist
  have hle := total_le_of_sublist hsub
  have hsize : averager.withoutOutliers.length < UInt64.size := by
    have hcount := hsub.length_le
    have hbig : UInt64.size = 2 ^ 64 := rfl
    omega
  rw [getAverageValueIgnoringOutliersAux, if_neg (by simpa using hne)]
  dsimp only
  split
  · rw [UInt64.toNat_div, toNat_sum (by omega),
      UInt64.toNat_ofNat_of_lt' hsize, average]
  · next hnone =>
    have hempty : averager.withoutOutliers.length = 0 := by omega
    rw [average, hempty, Nat.div_zero]
    rfl

/-- **The averages of a window that fits.** -/
theorem averagesOf_of_fits {averager : ZGTimeAverager}
    (hlen : averager.measurements.length < 2 ^ 32)
    (htotal : averager.totalMicros.toNat = total averager.measurements)
    (hne : averager.measurements ≠ []) (hfits : Fits averager.measurements) :
    AveragesOf averager.measurements averager.getRawAverageValue
      averager.getAverageValueIgnoringOutliersAux := by
  obtain ⟨hsum, hclose⟩ := hfits
  have hsub : averager.withoutOutliers ⊆ averager.measurements :=
    List.filter_subset_self _
  have haverage := toNat_getAverageValueIgnoringOutliersAux hlen hsum hne
  have hraw := toNat_getRawAverageValue hlen htotal hne
  by_cases hnone : averager.withoutOutliers = []
  · have hzero : (0 : UInt64) ∈ averager.measurements := by
      refine hclose.resolve_right fun hfew => ?_
      obtain ⟨m, hm, hfew⟩ := hfew
      exact withoutOutliers_ne_nil hlen htotal hm hfew hnone
    have hnothing : averager.getAverageValueIgnoringOutliersAux.toNat = 0 := by
      rw [haverage, hnone]
      rfl
    refine ⟨hraw, ⟨0, hzero, ?_⟩, 0, hzero, ?_⟩
    · exact UInt64.le_iff_toNat_le.mpr (Nat.zero_le _)
    · exact UInt64.le_iff_toNat_le.mpr hnothing.le
  · obtain ⟨hlower, hupper⟩ := average_between hnone
    obtain ⟨lo, hlo, hlower⟩ := hlower
    obtain ⟨hi, hhi, hupper⟩ := hupper
    refine ⟨hraw, ⟨lo, hsub hlo, ?_⟩, hi, hsub hhi, ?_⟩
    · exact UInt64.le_iff_toNat_le.mpr (haverage ▸ hlower)
    · exact UInt64.le_iff_toNat_le.mpr (haverage ▸ hupper)

/-! ## Runs -/

/-- The last measurements, as many as the window holds. -/
def Cached.window (maxMeasurements : UInt32) (c : Cached) : List UInt64 :=
  c.added.rtake maxMeasurements.toNat

/-- What is added makes a window that fits. -/
def WindowFits (maxMeasurements : UInt32) (c : Cached) : AveragerEvent → Prop
  | .addMeasurement newMeasurementMicros _ =>
      Fits ((c.added ++ [newMeasurementMicros]).rtake maxMeasurements.toNat)
  | _ => True

instance decidableWindowFits (maxMeasurements : UInt32) (c : Cached) :
    ∀ e : AveragerEvent, Decidable (WindowFits maxMeasurements c e)
  | .addMeasurement .. => inferInstanceAs (Decidable (Fits _))
  | .getAverageValueIgnoringOutliers => inferInstanceAs (Decidable True)
  | .clear => inferInstanceAs (Decidable True)

/-- What holds of an averager whose windows have all fit. -/
structure Sound (maxMeasurements : UInt32) (c : Cached) : Prop where
  measurements : c.averager.measurements = c.window maxMeasurements
  total : c.averager.totalMicros.toNat = total (c.window maxMeasurements)
  fits : c.window maxMeasurements ≠ [] → Fits (c.window maxMeasurements)
  cached : c.cachedAverageWithoutOutliers = 0xffffffffffffffff ∨
    c.cachedAverageWithoutOutliers =
      c.averager.getAverageValueIgnoringOutliersAux

variable {maxMeasurements : UInt32} {c : Cached}

theorem sound_new : Sound maxMeasurements .new := by
  have hnil : Cached.new.window maxMeasurements = [] := by
    rw [Cached.window, List.rtake]
    exact List.drop_nil
  exact ⟨hnil.symm, by rw [hnil]; rfl, fun hne => absurd hnil hne, .inl rfl⟩

/-- **The total stays right** as long as the windows fit. -/
theorem Sound.addMeasurement {m : UInt64} {now : ℕ} (hpos : 1 ≤ maxMeasurements)
    (h : Sound maxMeasurements c)
    (hfits : WindowFits maxMeasurements c (.addMeasurement m now)) :
    Sound maxMeasurements
      (averagerStep maxMeasurements c (.addMeasurement m now)) := by
  have hn : 0 < maxMeasurements.toNat := UInt32.le_iff_toNat_le.mp hpos
  obtain ⟨hleft, hsum⟩ := removeOldMeasurements_spec hn c.averager.measurements
    c.averager.totalMicros (by rw [h.total, h.measurements])
  have hwindow : (averagerStep maxMeasurements c
      (.addMeasurement m now)).window maxMeasurements =
        (removeOldMeasurements maxMeasurements.toNat c.averager.measurements
          c.averager.totalMicros).1 ++ [m] := by
    rw [hleft, h.measurements, Cached.window, Cached.window]
    exact Windows.rtake_append_singleton hn
  have hnew : Fits ((averagerStep maxMeasurements c
      (.addMeasurement m now)).window maxMeasurements) := hfits
  refine ⟨hwindow.symm, ?_, fun _ => hnew, .inl rfl⟩
  have htotal : ∀ ms, ZGTimeAverager.total (ms ++ [m]) =
      ZGTimeAverager.total ms + m.toNat := by
    intro ms
    simp [ZGTimeAverager.total]
  have hlt := hnew.1
  rw [hwindow, htotal, hleft, ← hsum] at hlt
  rw [hwindow, htotal, hleft, ← hsum]
  change (saturatingUnsignedAdd _ m).toNat = _
  rw [toNat_saturatingUnsignedAdd]
  omega

theorem Sound.step {e : AveragerEvent} (hpos : 1 ≤ maxMeasurements)
    (h : Sound maxMeasurements c) (hfits : WindowFits maxMeasurements c e) :
    Sound maxMeasurements (averagerStep maxMeasurements c e) := by
  cases e with
  | addMeasurement m now => exact h.addMeasurement hpos hfits
  | getAverageValueIgnoringOutliers =>
      refine ⟨h.measurements, h.total, h.fits, .inr ?_⟩
      simp only [averagerStep, Cached.getAverageValueIgnoringOutliers]
      split
      · rfl
      · next hcached => exact h.cached.resolve_left hcached
  | clear => exact sound_new

theorem Sound.averagesOf (h : Sound maxMeasurements c)
    (hne : c.window maxMeasurements ≠ []) :
    AveragesOf (c.window maxMeasurements) c.averager.getRawAverageValue
      c.getAverageValueIgnoringOutliers.1 := by
  have hlen : (c.window maxMeasurements).length < 2 ^ 32 := by
    have hle : (c.window maxMeasurements).length ≤ maxMeasurements.toNat :=
      Windows.length_rtake_le
    have hlt := maxMeasurements.toNat_lt
    omega
  have hcached : c.getAverageValueIgnoringOutliers.1 =
      c.averager.getAverageValueIgnoringOutliersAux := by
    simp only [Cached.getAverageValueIgnoringOutliers]
    split
    · rfl
    · next hcached => exact h.cached.resolve_left hcached
  have hfits := h.fits hne
  have htotal := h.total
  rw [← h.measurements] at hlen htotal hne hfits
  rw [hcached, ← h.measurements]
  exact averagesOf_of_fits hlen htotal hne hfits

/-- **The averages are those of the window**, as long as every window fits:
after each sequence of calls, the raw average is the floor of the average of
the last measurements, and the other one lies between the least and the
greatest of them, whether it has been cached or not. -/
theorem averages_of_windowsFit (maxMeasurements : UInt32)
    (hpos : 1 ≤ maxMeasurements) (es : List AveragerEvent)
    (hfits : Runs.StepsMeet (averagerStep maxMeasurements)
      (WindowFits maxMeasurements) .new es) :
    let c := Runs.run (averagerStep maxMeasurements) .new es
    c.window maxMeasurements ≠ [] →
      AveragesOf (c.window maxMeasurements) c.averager.getRawAverageValue
        c.getAverageValueIgnoringOutliers.1 := by
  intro c hne
  have h : Sound maxMeasurements c :=
    Runs.run_invariant_of_stepsMeet sound_new hfits
      fun _ _ hsound hfits => hsound.step hpos hfits
  exact h.averagesOf hne

/-- Two measurements, with the average asked for in between. -/
def twoMeasurements (m m' : UInt64) : List AveragerEvent :=
  [.addMeasurement m 0, .getAverageValueIgnoringOutliers,
    .addMeasurement m' 1]

/-- Measurements of 5 and 8 microseconds. -/
theorem averages_of_windowsFit_twoMeasurements :
    let c := Runs.run (averagerStep 2) .new (twoMeasurements 5 8)
    c.window 2 ≠ [] →
      AveragesOf (c.window 2) c.averager.getRawAverageValue
        c.getAverageValueIgnoringOutliers.1 :=
  averages_of_windowsFit 2 (by decide) (twoMeasurements 5 8) (by decide)

/-- Two measurements of some three hours and of some eight: the squares
saturate, both measurements are outliers, and the second average is 0. -/
theorem not_averagesOf_hours :
    ¬∀ maxMeasurements : UInt32, 1 ≤ maxMeasurements → ∀ es,
      let c := Runs.run (averagerStep maxMeasurements) .new es
      c.window maxMeasurements ≠ [] →
        AveragesOf (c.window maxMeasurements) c.averager.getRawAverageValue
          c.getAverageValueIgnoringOutliers.1 := by
  intro h
  have hzero : (Runs.run (averagerStep 2) .new (twoMeasurements 10000000000
      30000000000)).getAverageValueIgnoringOutliers.1 = 0 := by
    decide +kernel
  obtain ⟨-, hlower, -⟩ := h 2 (by decide)
    (twoMeasurements 10000000000 30000000000) (by decide)
  rw [hzero] at hlower
  exact absurd hlower (by decide)

end ZgChoir.ZGTimeAverager
