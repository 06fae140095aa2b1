import ChatRelay.SequenceId.Basic
import Mathlib.Algebra.Group.Int.Defs
import Mathlib.Algebra.Group.Nat.Defs

/-!
# The fields of a sequence id

What the shifts and masks of an id mean as numbers. Reading the fields is division with remainder,
for every 64-bit value (`worker_eq`, `unixMillis_eq`, `counter_eq`), so the fields of any value make
up the value again (`toInt_eq`). Writing them is addition: the three parts occupy different bits
(`toNat_ofFields`), so the lower two can be read off whatever the instant is, and within 41 bits of
milliseconds the value is that of the mixed-radix numeral (`toInt_ofFields`).
-/

namespace ChatRelay.SequenceId

/-! ## Shifts and masks as arithmetic -/

theorem toNat_ofNat {n : Nat} (h : n < 2 ^ 64) : (Int64.ofNat n).toBitVec.toNat = n := by
  rw [Int64.toBitVec_ofNat', BitVec.toNat_ofNat, Nat.mod_eq_of_lt h]

/-- A shift by less than the width is taken as it is. -/
theorem toNat_smod_width : ∀ k < 64, ((Int64.ofNat k).toBitVec.smod 64).toNat = k := by
  decide

section

variable (x : Int64) {k : Nat}

theorem toInt_shiftRight (hk : k < 64) : (x >>> Int64.ofNat k).toInt = x.toInt / 2 ^ k := by
  rw [← Int64.toInt_toBitVec, Int64.toBitVec_shiftRight, BitVec.sshiftRight', toNat_smod_width k hk,
    BitVec.toInt_sshiftRight, Int64.toInt_toBitVec, Int.shiftRight_eq_div_pow, Int.natCast_pow]
  rfl

theorem toNat_shiftLeft (hk : k < 64) :
    (x <<< Int64.ofNat k).toBitVec.toNat = 2 ^ k * x.toBitVec.toNat % 2 ^ 64 := by
  rw [Int64.toBitVec_shiftLeft, BitVec.shiftLeft_eq', toNat_smod_width k hk, BitVec.toNat_shiftLeft,
    Nat.shiftLeft_eq, Nat.mul_comm]

/-- The sign does not show in the low bits. -/
theorem toInt_emod_two_pow (hk : k ≤ 64) :
    x.toInt % 2 ^ k = (x.toBitVec.toNat % 2 ^ k : Nat) := by
  have hdvd : (2 : Int) ^ k ∣ (2 ^ 64 : Nat) := Int.natCast_dvd_natCast.mpr (Nat.pow_dvd_pow 2 hk)
  rw [← Int64.toInt_toBitVec, BitVec.toInt_eq_toNat_bmod, ← Int.emod_emod_of_dvd _ hdvd,
    Int.bmod_emod, Int.emod_emod_of_dvd _ hdvd, Int.natCast_emod, Int.natCast_pow]
  rfl

theorem toInt_and_mask (hk : k < 63) :
    (x &&& Int64.ofNat (2 ^ k - 1)).toInt = x.toInt % 2 ^ k := by
  have hpow : 2 ^ k < 2 ^ 63 := Nat.pow_lt_pow_right (by decide) hk
  have hmask : (Int64.ofNat (2 ^ k - 1)).toBitVec.toNat = 2 ^ k - 1 := toNat_ofNat (by omega)
  have hlow : x.toBitVec.toNat % 2 ^ k < 2 ^ k := Nat.mod_lt _ (Nat.two_pow_pos k)
  have h : (x &&& Int64.ofNat (2 ^ k - 1)).toBitVec.toNat = x.toBitVec.toNat % 2 ^ k := by
    rw [Int64.toBitVec_and, BitVec.toNat_and, hmask, Nat.and_two_pow_sub_one_eq_mod]
  rw [toInt_emod_two_pow x (by omega), ← Int64.toInt_toBitVec, BitVec.toInt_eq_toNat_of_lt, h]
  omega

end

/-! ## Reading the fields -/

/-- The counter within the millisecond of issue. -/
def counter (s : SequenceId) : Nat :=
  (s.value &&& 4095).toInt.toNat

theorem worker_eq (s : SequenceId) : s.worker = (s.value.toInt / 2 ^ 12 % 2 ^ 10).toNat := by
  have hshift : (s.value >>> 12).toInt = s.value.toInt / 2 ^ 12 :=
    toInt_shiftRight s.value (k := 12) (by decide)
  have hmask : (s.value >>> 12 &&& 1023).toInt = (s.value >>> 12).toInt % 2 ^ 10 :=
    toInt_and_mask _ (k := 10) (by decide)
  rw [worker, hmask, hshift]

theorem unixMillis_eq (s : SequenceId) : s.unixMillis = s.value.toInt / 2 ^ 22 + epoch := by
  have hshift : (s.value >>> 22).toInt = s.value.toInt / 2 ^ 22 :=
    toInt_shiftRight s.value (k := 22) (by decide)
  rw [unixMillis, hshift]

theorem counter_eq (s : SequenceId) : s.counter = (s.value.toInt % 2 ^ 12).toNat := by
  have hmask : (s.value &&& 4095).toInt = s.value.toInt % 2 ^ 12 :=
    toInt_and_mask s.value (k := 12) (by decide)
  rw [counter, hmask]

theorem worker_le (s : SequenceId) : s.worker ≤ maxWorker := by
  have hmax : maxWorker = 1023 := rfl
  rw [worker_eq, hmax]
  omega

theorem counter_le (s : SequenceId) : s.counter ≤ maxCounter := by
  have hmax : maxCounter = 4095 := rfl
  rw [counter_eq, hmax]
  omega

/-- Every value is the numeral of its fields, that of a negative id too. -/
theorem toInt_eq (s : SequenceId) :
    s.value.toInt = (s.unixMillis - epoch) * 2 ^ 22 + s.worker * 2 ^ 12 + s.counter := by
  rw [unixMillis_eq, worker_eq, counter_eq]
  omega

/-- The instant of any id is a number of 64 bits, and is computed as one. -/
theorem toInt_add_epoch (s : SequenceId) :
    ((s.value >>> 22) + Int64.ofInt epoch).toInt = s.unixMillis := by
  have hlow := s.value.le_toInt
  have hhigh := s.value.toInt_lt
  have hepoch : (Int64.ofInt epoch).toInt = 1704067200000 := rfl
  have hunix : (s.value >>> 22).toInt + 1704067200000 = s.unixMillis := rfl
  have hmillis : s.unixMillis = s.value.toInt / 2 ^ 22 + 1704067200000 := unixMillis_eq s
  rw [Int64.toInt_add, hepoch, hunix]
  refine Int.bmod_eq_of_le ?_ ?_ <;> omega

/-- The instants are in the order of the ids. -/
theorem unixMillis_mono {a b : SequenceId} (h : a.value ≤ b.value) :
    a.unixMillis ≤ b.unixMillis := by
  rw [Int64.le_iff_toInt_le] at h
  rw [unixMillis_eq, unixMillis_eq]
  omega

/-! ## Writing the fields -/

section

variable {millis worker counter : Nat}

/-- The fields do not spill into each other: bits of the instant that do not fit are lost at the
upper end. -/
theorem toNat_ofFields (millis : Nat) (hw : worker ≤ maxWorker) (hc : counter ≤ maxCounter) :
    (ofFields millis worker counter).value.toBitVec.toNat =
      2 ^ 22 * ((Int64.ofInt (millis - epoch)).toBitVec.toNat % 2 ^ 42) + 2 ^ 12 * worker +
        counter := by
  have hworker : worker ≤ 1023 := hw
  have hcounter : counter ≤ 4095 := hc
  have hinstant : (Int64.ofInt (millis - epoch) <<< 22).toBitVec.toNat =
      2 ^ 22 * ((Int64.ofInt (millis - epoch)).toBitVec.toNat % 2 ^ 42) := by
    refine (toNat_shiftLeft _ (k := 22) (by decide)).trans ?_
    omega
  have hmiddle : (Int64.ofNat worker <<< 12).toBitVec.toNat = 2 ^ 12 * worker := by
    refine (toNat_shiftLeft _ (k := 12) (by decide)).trans ?_
    rw [toNat_ofNat (by omega)]
    omega
  have hlow : 2 ^ 12 * worker + counter = 2 ^ 12 * worker ||| counter :=
    Nat.two_pow_add_eq_or_of_lt (by omega) worker
  rw [ofFields, Int64.toBitVec_or, Int64.toBitVec_or, BitVec.toNat_or, BitVec.toNat_or, hinstant,
    hmiddle, toNat_ofNat (by omega), Nat.or_assoc, ← hlow,
    ← Nat.two_pow_add_eq_or_of_lt (by omega), Nat.add_assoc]

/-- The lower two fields do not depend on the instant. -/
theorem toInt_ofFields_emod (millis : Nat) (hw : worker ≤ maxWorker) (hc : counter ≤ maxCounter) :
    (ofFields millis worker counter).value.toInt % 2 ^ 22 = 2 ^ 12 * worker + counter := by
  have hworker : worker ≤ 1023 := hw
  have hcounter : counter ≤ 4095 := hc
  rw [toInt_emod_two_pow _ (by decide), toNat_ofFields millis hw hc]
  omega

theorem worker_ofFields (millis : Nat) (hw : worker ≤ maxWorker) (hc : counter ≤ maxCounter) :
    (ofFields millis worker counter).worker = worker := by
  have hcounter : counter ≤ 4095 := hc
  have hlow := toInt_ofFields_emod millis hw hc
  rw [worker_eq]
  omega

theorem counter_ofFields (millis : Nat) (hw : worker ≤ maxWorker) (hc : counter ≤ maxCounter) :
    (ofFields millis worker counter).counter = counter := by
  have hcounter : counter ≤ 4095 := hc
  have hlow := toInt_ofFields_emod millis hw hc
  rw [counter_eq]
  omega

/-- The numeral of an id: milliseconds, worker and counter in mixed radix. -/
theorem toInt_ofFields (hlow : epoch ≤ millis) (hhigh : millis < epoch + 2 ^ 41)
    (hw : worker ≤ maxWorker) (hc : counter ≤ maxCounter) :
    (ofFields millis worker counter).value.toInt =
      (millis - epoch) * 2 ^ 22 + worker * 2 ^ 12 + counter := by
  have hworker : worker ≤ 1023 := hw
  have hcounter : counter ≤ 4095 := hc
  have hnat := toNat_ofFields millis hw hc
  rw [Int64.toBitVec_ofInt, BitVec.toNat_ofInt] at hnat
  rw [← Int64.toInt_toBitVec, BitVec.toInt_eq_toNat_of_lt] <;> omega

theorem unixMillis_ofFields (hlow : epoch ≤ millis) (hhigh : millis < epoch + 2 ^ 41)
    (hw : worker ≤ maxWorker) (hc : counter ≤ maxCounter) :
    (ofFields millis worker counter).unixMillis = millis := by
  have hworker : worker ≤ 1023 := hw
  have hcounter : counter ≤ 4095 := hc
  rw [unixMillis_eq, toInt_ofFields hlow hhigh hw hc]
  omega

theorem zero_le_ofFields (hlow : epoch ≤ millis) (hhigh : millis < epoch + 2 ^ 41)
    (hw : worker ≤ maxWorker) (hc : counter ≤ maxCounter) :
    0 ≤ (ofFields millis worker counter).value := by
  have hzero : (0 : Int64).toInt = 0 := rfl
  rw [Int64.le_iff_toInt_le, toInt_ofFields hlow hhigh hw hc, hzero]
  omega

end

/-- The instant lies in the 41 bits of milliseconds that a positive id has. -/
def InEra (millis : Nat) : Prop :=
  epoch < millis ∧ millis < epoch + 2 ^ 41

theorem InEra.pos {millis : Nat} (h : InEra millis) : 0 < millis := by
  have hepoch : (1704067200000 : Int) < millis := h.1
  omega

theorem InEra.lt_two_pow {millis : Nat} (h : InEra millis) : millis < 2 ^ 52 := by
  have hend : (millis : Int) < 1704067200000 + 2 ^ 41 := h.2
  omega

/-! ## Main result -/

/-- Any 64 bits are the numeral of the fields that are read from them, the instant of any id is
computed without overflow, and ids in order have their instants in order. Conversely, an instant in
the 41 bits from the epoch on, a worker and a counter make an id that is not negative, and these are
the fields that are read from it. -/
theorem fields_exact :
    (∀ s : SequenceId,
      s.value.toInt = (s.unixMillis - epoch) * 2 ^ 22 + s.worker * 2 ^ 12 + s.counter ∧
      s.worker ≤ 1023 ∧ s.counter ≤ 4095 ∧
      ((s.value >>> 22) + Int64.ofInt epoch).toInt = s.unixMillis) ∧
    (∀ a b : SequenceId, a.value ≤ b.value → a.unixMillis ≤ b.unixMillis) ∧
    ∀ millis worker counter : Nat, epoch ≤ millis → millis < epoch + 2 ^ 41 → worker ≤ 1023 →
      counter ≤ 4095 → 0 ≤ (ofFields millis worker counter).value ∧
        (ofFields millis worker counter).unixMillis = millis ∧
        (ofFields millis worker counter).worker = worker ∧
        (ofFields millis worker counter).counter = counter :=
  ⟨fun s => ⟨s.toInt_eq, s.worker_le, s.counter_le, s.toInt_add_epoch⟩,
    fun _ _ => unixMillis_mono,
    fun millis _ _ hlow hhigh hw hc => ⟨zero_le_ofFields hlow hhigh hw hc,
      unixMillis_ofFields hlow hhigh hw hc, worker_ofFields millis hw hc,
      counter_ofFields millis hw hc⟩⟩

/-- The value below 0 has all bits set, and its instant lies just before the epoch; the greatest
value is that of the last fields. -/
theorem fields_exact_at_the_ends :
    ((-1 : Int64).toInt = ((⟨-1⟩ : SequenceId).unixMillis - epoch) * 2 ^ 22 +
        (⟨-1⟩ : SequenceId).worker * 2 ^ 12 + (⟨-1⟩ : SequenceId).counter ∧
      (⟨-1⟩ : SequenceId).unixMillis = epoch - 1) ∧
    (Int64.minValue ≤ -1 ∧
      (⟨Int64.minValue⟩ : SequenceId).unixMillis ≤ (⟨-1⟩ : SequenceId).unixMillis) ∧
    ∃ millis : Nat, (millis : Int) = epoch + (2 ^ 41 - 1) ∧
      ofFields millis 1023 4095 = ⟨Int64.maxValue⟩ ∧
      0 ≤ (ofFields millis 1023 4095).value ∧ (ofFields millis 1023 4095).unixMillis = millis ∧
      (ofFields millis 1023 4095).worker = 1023 ∧ (ofFields millis 1023 4095).counter = 4095 :=
  ⟨⟨(fields_exact.1 ⟨-1⟩).1, by decide⟩,
    ⟨by decide, fields_exact.2.1 ⟨Int64.minValue⟩ ⟨-1⟩ (by decide)⟩,
    3903090455551, by decide, by decide,
    fields_exact.2.2 3903090455551 1023 4095 (by decide) (by decide) (by decide) (by decide)⟩

end ChatRelay.SequenceId
