import GalayTracing.Common.HexCodec
import GalayTracing.Foundation.BigEndian
import GalayTracing.Kernel.Sampler
import Mathlib.Algebra.Order.Field.Rat
import Mathlib.Tactic.Linarith

/-!
# Sampling by ratio

`TraceIdRatioSampler` compares the first eight bytes of a trace identifier with its ratio.  The
floating-point values are taken as exact rationals here.  The decision is a threshold on the number
these bytes stand for, and so it agrees with the order of the hexadecimal texts and with the order
of the ratios.
-/

namespace GalayTracing

/-- `std::clamp` of a ratio. -/
def clampRatio (value low high : ℚ) : ℚ :=
  if value < low then low else if high < value then high else value

/-- `TraceIdRatioSampler`. -/
structure TraceIdRatioSampler where
  /-- `m_ratio`. -/
  ratio : ℚ
  zero_le_ratio : 0 ≤ ratio
  ratio_le_one : ratio ≤ 1

/-- The floating-point constant `kDenominator`, which is `UINT64_MAX + 1`. -/
def kDenominator : ℚ := 18446744073709551615 + 1

/-- One step of the loop of `traceIdHighBits`. -/
def shiftIn (value : UInt64) (byte : UInt8) : UInt64 := (value <<< 8) ||| byte.toUInt64

/-- `traceIdHighBits`: the first eight bytes are shifted into a word. -/
def traceIdHighBits (traceId : TraceId) : UInt64 := (traceId.bytes.toList.take 8).foldl shiftIn 0

namespace TraceIdRatioSampler

/-- A clamped value is not below the lower bound. -/
lemma le_clampRatio (value : ℚ) : 0 ≤ clampRatio value 0 1 := by
  unfold clampRatio
  split_ifs <;> linarith

/-- A clamped value is not above the upper bound. -/
lemma clampRatio_le (value : ℚ) : clampRatio value 0 1 ≤ 1 := by
  unfold clampRatio
  split_ifs <;> linarith

/-- The constructor: the ratio is clamped to the interval from 0 to 1. -/
def ofRatio (ratio : ℚ) : TraceIdRatioSampler :=
  ⟨clampRatio ratio 0 1, le_clampRatio ratio, clampRatio_le ratio⟩

/-- `TraceIdRatioSampler::shouldSample`. -/
def shouldSample (sampler : TraceIdRatioSampler) : Sampler := fun _ traceId =>
  if sampler.ratio ≤ 0 then false
  else if sampler.ratio ≥ 1 then true
  else
    let normalized := ((traceIdHighBits traceId).toNat : ℚ) / kDenominator
    decide (normalized < sampler.ratio)

end TraceIdRatioSampler

/-! ### The number the sampler looks at -/

/-- The number that the first eight bytes of a trace identifier stand for, the first one highest. -/
def highNumber (traceId : TraceId) : ℕ :=
  BigEndian.value 256 ((traceId.bytes.toList.take 8).map UInt8.toNat)

/-- The values of the digits of a hexadecimal text. -/
def hexValues (hex : ByteString) : List ℕ := hex.map fun ch => (Hex.value ch).getD 0

/-- Shifting in a byte makes it the lowest one, as long as there is room. -/
lemma toNat_shiftIn {value : UInt64} (hvalue : value.toNat < 256 ^ 7) (byte : UInt8) :
    (shiftIn value byte).toNat = value.toNat * 256 + byte.toNat := by
  have hbyte : byte.toNat < 2 ^ 8 := byte.toNat_lt
  have hshift : (value <<< 8).toNat = value.toNat <<< 8 := by
    have hroom : value.toNat <<< 8 < 2 ^ 64 := by
      rw [Nat.shiftLeft_eq]
      omega
    exact (UInt64.toNat_shiftLeft value 8).trans (Nat.mod_eq_of_lt hroom)
  rw [shiftIn, UInt64.toNat_or, hshift, UInt8.toNat_toUInt64,
    ← Nat.shiftLeft_add_eq_or_of_lt hbyte, Nat.shiftLeft_eq]

/-- The loop of `traceIdHighBits` computes the number of the bytes. -/
lemma toNat_foldl_shiftIn {bytes : ByteString} {value : UInt64} {m : ℕ}
    (hvalue : value.toNat < 256 ^ m) (hm : m + bytes.length ≤ 8) :
    (bytes.foldl shiftIn value).toNat =
      value.toNat * 256 ^ bytes.length + BigEndian.value 256 (bytes.map UInt8.toNat) := by
  induction bytes generalizing value m with
  | nil => simp
  | cons byte bytes ih =>
    have hlength : m + 1 + bytes.length ≤ 8 := by
      rw [List.length_cons] at hm
      omega
    have hroom : value.toNat < 256 ^ 7 :=
      Nat.lt_of_lt_of_le hvalue (Nat.pow_le_pow_right (by decide) (by omega))
    have hstep := toNat_shiftIn hroom byte
    have hbyte : byte.toNat < 256 := byte.toNat_lt
    have hvalue' : (shiftIn value byte).toNat < 256 ^ (m + 1) := by
      rw [hstep, pow_succ]
      omega
    rw [List.foldl_cons, ih hvalue' hlength, hstep, List.map_cons, BigEndian.value_cons,
      List.length_map, List.length_cons]
    ring

/-- `traceIdHighBits` is the number of the first eight bytes. -/
lemma toNat_traceIdHighBits (traceId : TraceId) :
    (traceIdHighBits traceId).toNat = highNumber traceId := by
  have hlength : (traceId.bytes.toList.take 8).length ≤ 8 := List.length_take_le 8 _
  have hzero : (0 : UInt64).toNat < 256 ^ 0 := by decide
  have hfold := toNat_foldl_shiftIn hzero ((Nat.zero_add _).trans_le hlength)
  rw [traceIdHighBits, hfold, highNumber, UInt64.toNat_zero, Nat.zero_mul, Nat.zero_add]

/-- The number is below `2 ^ 64`. -/
lemma highNumber_lt (traceId : TraceId) : highNumber traceId < 2 ^ 64 := by
  rw [← toNat_traceIdHighBits]
  exact (traceIdHighBits traceId).toNat_lt

/-- The digits of two texts, one after the other. -/
lemma hexValues_append (hex hex' : ByteString) :
    hexValues (hex ++ hex') = hexValues hex ++ hexValues hex' := List.map_append

/-- The digits of an identifier are the halves of its bytes. -/
lemma hexValues_encode (bytes : List UInt8) :
    hexValues (Hex.encode bytes) =
      (bytes.map UInt8.toNat).flatMap fun byte => [byte / 16, byte % 16] := by
  induction bytes with
  | nil => rfl
  | cons byte bytes ih =>
    have hlt := byte.toNat_lt
    have hhigh := Hex.value_digit (show byte.toNat / 16 < 16 by omega)
    have hlow := Hex.value_digit (show byte.toNat % 16 < 16 by omega)
    have hpair : hexValues (Hex.pair byte) = [byte.toNat / 16, byte.toNat % 16] := by
      simp [hexValues, Hex.pair, hhigh, hlow]
    rw [Hex.encode_cons, hexValues_append, hpair, ih, List.map_cons, List.flatMap_cons]

/-- The first digits of an identifier are those of its first bytes. -/
lemma take_encode (bytes : List UInt8) (k : ℕ) :
    (Hex.encode bytes).take (2 * k) = Hex.encode (bytes.take k) := by
  induction bytes generalizing k with
  | nil => simp
  | cons byte bytes ih =>
    match k with
    | 0 => rfl
    | k + 1 =>
      rw [Hex.encode_cons, List.take_succ_cons, Hex.encode_cons, ← ih, Hex.pair, Nat.mul_succ]
      rfl

/-- The first sixteen digits of the text stand for the same number as the first eight bytes. -/
lemma highNumber_eq_value_toHex (traceId : TraceId) :
    highNumber traceId = BigEndian.value 16 (hexValues (traceId.toHex.take 16)) := by
  have htake := take_encode traceId.bytes.toList 8
  rw [Identifier.toHex_eq, htake, hexValues_encode, BigEndian.value_flatMap_halves, highNumber]

/-- The digits that are written are ordered as their values. -/
lemma hexValues_lex {hex hex' : ByteString} (hhex : ∀ ch ∈ hex, ch ∈ kHexDigits)
    (hhex' : ∀ ch ∈ hex', ch ∈ kHexDigits) (hlex : List.Lex (· < ·) hex hex') :
    List.Lex (· < ·) (hexValues hex) (hexValues hex') := by
  induction hlex with
  | nil => exact .nil
  | cons _ ih =>
    exact .cons (ih (List.forall_mem_cons.mp hhex).2 (List.forall_mem_cons.mp hhex').2)
  | rel hlt =>
    have hall : ∀ ch ∈ kHexDigits, ∀ ch' ∈ kHexDigits, ch < ch' →
        (Hex.value ch).getD 0 < (Hex.value ch').getD 0 := by decide
    have hfirst := hall _ (List.forall_mem_cons.mp hhex).1 _ (List.forall_mem_cons.mp hhex').1 hlt
    exact .rel hfirst

/-- Trace identifiers that are ordered as texts have ordered numbers. -/
lemma highNumber_le_of_lex {traceId traceId' : TraceId}
    (hlex : List.Lex (· < ·) traceId.toHex traceId'.toHex) :
    highNumber traceId ≤ highNumber traceId' := by
  have hdigits : ∀ (id : TraceId), ∀ ch ∈ id.toHex, ch ∈ kHexDigits := by
    intro id ch hch
    rw [Identifier.toHex_eq] at hch
    exact mem_kHexDigits_of_mem_encode hch
  have hvalues := hexValues_lex (hdigits traceId) (hdigits traceId') hlex
  have hlength : ∀ id : TraceId, (hexValues id.toHex).length = 32 := by
    intro id
    rw [hexValues, List.length_map, Identifier.toHex_eq, Hex.length_encode, id.bytes.length_toList]
    rfl
  have hbase : ∀ digit ∈ hexValues traceId.toHex, digit < 16 := by
    intro digit hdigit
    obtain ⟨ch, hch, rfl⟩ := List.mem_map.mp hdigit
    have hall : ∀ ch ∈ kHexDigits, (Hex.value ch).getD 0 < 16 := by decide
    exact hall ch (hdigits traceId ch hch)
  have hle := BigEndian.value_take_le_of_lex ((hlength traceId).trans (hlength traceId').symm)
    hbase hvalues (k := 16) (by rw [hlength]; decide)
  rw [highNumber_eq_value_toHex, highNumber_eq_value_toHex]
  simpa only [hexValues, List.map_take] using hle

/-! ### The decision -/

namespace TraceIdRatioSampler

/-- The decision is a threshold on the number, the short cuts included. -/
lemma shouldSample_iff (sampler : TraceIdRatioSampler) (parent : Option SpanContext)
    (traceId : TraceId) : sampler.shouldSample parent traceId = true ↔
      (highNumber traceId : ℚ) < sampler.ratio * 2 ^ 64 := by
  have hnonneg : (0 : ℚ) ≤ highNumber traceId := Nat.cast_nonneg _
  have hlt : (highNumber traceId : ℚ) < 2 ^ 64 := by exact_mod_cast highNumber_lt traceId
  have hdenominator : kDenominator = 2 ^ 64 := by norm_num [kDenominator]
  unfold shouldSample
  split_ifs with hzero hone
  · have hratio : sampler.ratio = 0 := le_antisymm hzero sampler.zero_le_ratio
    simp only [hratio, zero_mul, false_iff, not_lt]
    exact hnonneg
  · have hratio : sampler.ratio = 1 := le_antisymm sampler.ratio_le_one hone
    simp only [hratio, one_mul, true_iff]
    exact hlt
  · rw [decide_eq_true_iff, toNat_traceIdHighBits, hdenominator, div_lt_iff₀ (by positivity)]

end TraceIdRatioSampler

/-- Ratio sampling is a consistent threshold on the trace identifier: for every ratio, clamped to
`r`, exactly the identifiers are sampled whose first eight bytes, or first sixteen digits, stand for
a number below `r * 2 ^ 64`. -/
theorem traceIdRatioSampler_threshold (ratio : ℚ) :
    (∀ parent traceId, (TraceIdRatioSampler.ofRatio ratio).shouldSample parent traceId = true ↔
      (highNumber traceId : ℚ) < clampRatio ratio 0 1 * 2 ^ 64) ∧
    (∀ traceId : TraceId, highNumber traceId =
      BigEndian.value 16 (hexValues (traceId.toHex.take 16))) ∧
    (clampRatio ratio 0 1 ≤ 0 → ∀ traceId : TraceId,
      ¬(highNumber traceId : ℚ) < clampRatio ratio 0 1 * 2 ^ 64) ∧
    (clampRatio ratio 0 1 ≥ 1 → ∀ traceId : TraceId,
      (highNumber traceId : ℚ) < clampRatio ratio 0 1 * 2 ^ 64) ∧
    (∀ (parent parent' : Option SpanContext) (traceId traceId' : TraceId),
      traceId.bytes.toList.take 8 = traceId'.bytes.toList.take 8 →
      (TraceIdRatioSampler.ofRatio ratio).shouldSample parent traceId =
        (TraceIdRatioSampler.ofRatio ratio).shouldSample parent' traceId') ∧
    (∀ ratio', clampRatio ratio 0 1 ≤ clampRatio ratio' 0 1 → ∀ parent traceId,
      (TraceIdRatioSampler.ofRatio ratio).shouldSample parent traceId = true →
      (TraceIdRatioSampler.ofRatio ratio').shouldSample parent traceId = true) ∧
    ∀ parent traceId traceId', List.Lex (· < ·) traceId.toHex traceId'.toHex →
      (TraceIdRatioSampler.ofRatio ratio).shouldSample parent traceId' = true →
      (TraceIdRatioSampler.ofRatio ratio).shouldSample parent traceId = true := by
  have hiff := (TraceIdRatioSampler.ofRatio ratio).shouldSample_iff
  have hratio : (TraceIdRatioSampler.ofRatio ratio).ratio = clampRatio ratio 0 1 := rfl
  rw [hratio] at hiff
  have hnonneg : ∀ traceId, (0 : ℚ) ≤ highNumber traceId := fun traceId => Nat.cast_nonneg _
  have hlt : ∀ traceId, (highNumber traceId : ℚ) < 2 ^ 64 := fun traceId => by
    exact_mod_cast highNumber_lt traceId
  refine ⟨hiff, highNumber_eq_value_toHex, fun hr traceId => ?_, fun hr traceId => ?_,
    fun parent parent' traceId traceId' hbytes => ?_, fun ratio' hle parent traceId hsampled => ?_,
    fun parent traceId traceId' hlex hsampled => ?_⟩
  · linarith [hnonneg traceId]
  · linarith [hlt traceId]
  · rw [Bool.eq_iff_iff, hiff, hiff, highNumber, highNumber, hbytes]
  · rw [TraceIdRatioSampler.shouldSample_iff]
    have hthreshold := (hiff parent traceId).mp hsampled
    exact hthreshold.trans_le (mul_le_mul_of_nonneg_right hle (by positivity))
  · have hle : (highNumber traceId : ℚ) ≤ highNumber traceId' := by
      exact_mod_cast highNumber_le_of_lex hlex
    exact (hiff parent traceId).mpr (hle.trans_lt ((hiff parent traceId').mp hsampled))

end GalayTracing
