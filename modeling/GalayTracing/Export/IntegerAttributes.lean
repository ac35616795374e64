import GalayTracing.Export.OtlpDocument
import Mathlib.Algebra.Group.Int.Defs

/-!
# Integer attributes on the wire

An OTLP consumer reads the text of `intValue` as a signed integer of 64 bits.  The attributes made
from signed integers arrive as they are, and those made from `std::uint64_t` only if they are below
`2 ^ 63`: the larger ones are written out of the range of the field.
-/

namespace GalayTracing

open OtlpHttpExporter

/-- An integer, with the type that selects the overload of `spanAttribute` and `setAttribute`. -/
inductive IntegerArgument
  | int64 (value : Int64)
  | int (value : Int32)
  | uint64 (value : UInt64)

namespace IntegerArgument

/-- The value of the integer. -/
def toInt : IntegerArgument → ℤ
  | int64 value => value.toInt
  | int value => value.toInt
  | uint64 value => value.toNat

/-- The overload of `spanAttribute` for the integer. -/
def spanAttribute (name : ByteString) : IntegerArgument → SpanAttribute
  | int64 value => .ofInt64 name value
  | int value => .ofInt name value
  | uint64 value => .ofUInt64 name value

/-- The overload of `Span::setAttribute` for the integer. -/
def setAttribute (span : Span) (name : ByteString) : IntegerArgument → Bool × Span
  | int64 value => span.setInt64 name value
  | int value => span.setInt name value
  | uint64 value => span.setUInt64 name value

/-- Setting an attribute of a span appends the attribute that `spanAttribute` makes, if there is
room for it. -/
lemma setAttribute_eq (span : Span) (name : ByteString) (argument : IntegerArgument) :
    argument.setAttribute span name = span.setAttribute (argument.spanAttribute name) := by
  cases argument <;> rfl

end IntegerArgument

/-- The number that a consumer reads from the text of `intValue`, if it is in the range of
`AnyValue.int_value`. -/
def readIntValue (text : ByteString) : Option ℤ :=
  (Decimal.readInt text).filter fun n => -2 ^ 63 ≤ n ∧ n < 2 ^ 63

/-- `ArrivesAs value n`: the text that `appendAttributeValue` puts into `intValue` is read by a
consumer as the number `n`, in the range of the field. -/
def ArrivesAs (value : SpanAttributeValue) (n : ℤ) : Prop :=
  ∀ (toChars : Double → ByteString) (out : ByteString), ∃ text : ByteString,
    appendAttributeValue toChars out value =
      out ++ ascii "\x7b\"intValue\":\"" ++ text ++ ascii "\"\x7d" ∧
    readIntValue text = some n

/-- An integer attribute survives: the attribute that `spanAttribute` makes, for a span or for a
resource, arrives as its value, and so does the one that `setAttribute` leaves in a span. -/
def Survives (argument : IntegerArgument) : Prop :=
  ∀ name : ByteString, ArrivesAs (argument.spanAttribute name).value argument.toInt ∧
    ∀ span : Span, (argument.setAttribute span name).1 = true →
      ∃ attr : SpanAttribute,
        (argument.setAttribute span name).2.attributes = span.attributes ++ [attr] ∧
        ArrivesAs attr.value argument.toInt

/-- What is written for an integer attribute is read as its value exactly if it is in range. -/
lemma arrivesAs_iff {value : SpanAttributeValue} {n : ℤ}
    (hvalue : ∀ (toChars : Double → ByteString) (out : ByteString),
      appendAttributeValue toChars out value =
        out ++ ascii "\x7b\"intValue\":\"" ++ Decimal.ofInt n ++ ascii "\"\x7d") :
    ArrivesAs value n ↔ -2 ^ 63 ≤ n ∧ n < 2 ^ 63 := by
  have hread : readIntValue (Decimal.ofInt n) = some n ↔ -2 ^ 63 ≤ n ∧ n < 2 ^ 63 := by
    rw [readIntValue, Decimal.readInt_ofInt, Option.filter_some]
    split_ifs with hrange
    · simpa using hrange
    · simpa using hrange
  rw [← hread]
  constructor
  · intro harrives
    obtain ⟨text, htext, hn⟩ := harrives (fun _ => []) []
    rw [hvalue] at htext
    have hsame : Decimal.ofInt n = text :=
      List.append_cancel_left (List.append_cancel_right htext)
    rwa [hsame]
  · intro hn toChars out
    exact ⟨Decimal.ofInt n, hvalue toChars out, hn⟩

/-- What is written for an integer is its decimal text. -/
lemma appendAttributeValue_spanAttribute (argument : IntegerArgument) (name : ByteString)
    (toChars : Double → ByteString) (out : ByteString) :
    appendAttributeValue toChars out (argument.spanAttribute name).value =
      out ++ ascii "\x7b\"intValue\":\"" ++ Decimal.ofInt argument.toInt ++ ascii "\"\x7d" := by
  have hsigned : ∀ value : Int64, appendAttributeValue toChars out (.int64 value) =
      out ++ ascii "\x7b\"intValue\":\"" ++ Decimal.ofInt value.toInt ++ ascii "\"\x7d" := by
    intro value
    have hlt := value.toInt_lt
    have hge := value.le_toInt
    rw [appendAttributeValue]
    simp only [appendNumber_ofInt _ (show value.toInt.natAbs < 10 ^ 20 by omega)]
  cases argument with
  | int64 value => exact hsigned value
  | int value =>
    rw [IntegerArgument.toInt, ← Int32.toInt_toInt64]
    exact hsigned value.toInt64
  | uint64 value =>
    have hlt := value.toNat_lt
    change appendAttributeValue toChars out (.uint64 value) = _
    rw [appendAttributeValue]
    simp only [appendNumber_ofInt _ (show (value.toNat : ℤ).natAbs < 10 ^ 20 by omega)]
    rfl

/-- An integer attribute survives exactly if its value is in the range of the field. -/
lemma survives_iff_range (argument : IntegerArgument) :
    Survives argument ↔ -2 ^ 63 ≤ argument.toInt ∧ argument.toInt < 2 ^ 63 := by
  have harrives : ∀ name, ArrivesAs (argument.spanAttribute name).value argument.toInt ↔
      -2 ^ 63 ≤ argument.toInt ∧ argument.toInt < 2 ^ 63 := fun name =>
    arrivesAs_iff (appendAttributeValue_spanAttribute argument name)
  constructor
  · intro hsurvives
    exact (harrives []).mp (hsurvives []).1
  · intro hrange name
    refine ⟨(harrives name).mpr hrange, fun span hset => ?_⟩
    refine ⟨argument.spanAttribute name, ?_, (harrives name).mpr hrange⟩
    rw [argument.setAttribute_eq, Span.setAttribute] at hset ⊢
    split_ifs at hset ⊢
    rfl

/-- The attributes made from `std::int64_t` and `int` survive, and those made from `std::uint64_t`
exactly if they are below `2 ^ 63`. -/
theorem survives_iff (argument : IntegerArgument) :
    Survives argument ↔ ∀ value : UInt64, argument = .uint64 value → value.toNat < 2 ^ 63 := by
  rw [survives_iff_range]
  cases argument with
  | int64 value => simpa [IntegerArgument.toInt] using ⟨value.le_toInt, value.toInt_lt⟩
  | int value =>
    have hlt := value.toInt_lt
    have hge := value.le_toInt
    simp only [IntegerArgument.toInt, reduceCtorEq, false_imp_iff, implies_true, iff_true]
    omega
  | uint64 value =>
    simp only [IntegerArgument.toInt, IntegerArgument.uint64.injEq, forall_eq']
    omega

/-- The largest `std::uint64_t` does not survive. -/
theorem not_forall_survives : ¬∀ argument : IntegerArgument, Survives argument := by
  intro hall
  have hrange := (survives_iff_range _).mp (hall (.uint64 0xffffffffffffffff))
  revert hrange
  decide

end GalayTracing
