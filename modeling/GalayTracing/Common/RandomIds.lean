import GalayTracing.Common.Identifiers
import GalayTracing.Foundation.WordMixing

/-!
# Random identifiers

The generator of a thread and the identifiers it makes.  A generator walks by an odd constant and
scrambles the state it reaches; scrambling is injective, so the words drawn are distinct as long as
the walk has not come round.  The first eight bytes of every identifier are a word of its own.

A generator keeps two things the program does not: the seed it started from, and how many words
were drawn.  The loops that reject the identifier of zeros run on fuel, one unit for each pass.
-/

namespace GalayTracing

open WordMixing

/-! ### The generator of a thread -/

/-- The constant `nextRandom64` adds to its state. -/
def kIncrement : UInt64 := 0x9e3779b97f4a7c15

/-- What `nextRandom64` makes of the state it has reached. -/
def scramble (state : UInt64) : UInt64 :=
  let value := state
  let value := (value ^^^ (value >>> 30)) * 0xbf58476d1ce4e5b9
  let value := (value ^^^ (value >>> 27)) * 0x94d049bb133111eb
  value ^^^ (value >>> 31)

/-- The generator of a thread that started from the given seed. -/
structure Generator (seed : UInt64) where
  /-- `state`, the variable of the thread. -/
  state : UInt64
  /-- How many words were drawn so far. -/
  drawn : ℕ
  state_eq : state.toBitVec = walk seed.toBitVec kIncrement.toBitVec drawn

namespace Generator

variable {seed : UInt64}

/-- The generator of a thread that has drawn nothing yet. -/
def seeded (seed : UInt64) : Generator seed := ⟨seed, 0, (walk_zero _ _).symm⟩

/-- The state after one more step of the walk. -/
lemma state_add_eq (g : Generator seed) : (g.state + kIncrement).toBitVec =
    walk seed.toBitVec kIncrement.toBitVec (g.drawn + 1) := by
  rw [walk_succ, ← g.state_eq, UInt64.toBitVec_add]

/-- `nextRandom64`: the word drawn, and the generator after it. -/
def nextRandom64 (g : Generator seed) : UInt64 × Generator seed :=
  let state := g.state + kIncrement
  (scramble state, ⟨state, g.drawn + 1, g.state_add_eq⟩)

end Generator

/-- The `k`-th word drawn from a seed, counted from one. -/
def word (seed : UInt64) (k : ℕ) : UInt64 :=
  scramble ⟨walk seed.toBitVec kIncrement.toBitVec k⟩

variable {seed : UInt64}

/-- The word a generator draws next. -/
lemma nextRandom64_fst (g : Generator seed) : g.nextRandom64.1 = word seed (g.drawn + 1) := by
  rw [word, ← g.state_add_eq, Generator.nextRandom64]

/-- Drawing a word is counted. -/
@[simp] lemma nextRandom64_drawn (g : Generator seed) : g.nextRandom64.2.drawn = g.drawn + 1 := by
  rw [Generator.nextRandom64]

/-- Scrambling in terms of the operations on words. -/
lemma scramble_toBitVec (state : UInt64) :
    (scramble state).toBitVec = xorShiftRight 31
      (xorShiftRight 27 (xorShiftRight 30 state.toBitVec * 0xbf58476d1ce4e5b9#64) *
        0x94d049bb133111eb#64) := rfl

/-- Scrambling loses nothing. -/
lemma scramble_injective : Function.Injective scramble := by
  intro x y hxy
  have hbits := congrArg UInt64.toBitVec hxy
  rw [scramble_toBitVec, scramble_toBitVec] at hbits
  have hsecond := mul_injective_of_odd (by decide) (xorShiftRight_injective (by decide) hbits)
  have hfirst := mul_injective_of_odd (by decide) (xorShiftRight_injective (by decide) hsecond)
  exact UInt64.toBitVec_inj.mp (xorShiftRight_injective (by decide) hfirst)

/-- Different states give different words. -/
lemma walk_eq_of_word_eq {j k : ℕ} (hword : word seed j = word seed k) :
    walk seed.toBitVec kIncrement.toBitVec j = walk seed.toBitVec kIncrement.toBitVec k :=
  congrArg UInt64.toBitVec (scramble_injective hword)

/-- No word is drawn twice among the first `2 ^ 64`. -/
lemma word_injOn {j k : ℕ} (hj : j < 2 ^ 64) (hk : k < 2 ^ 64)
    (hword : word seed j = word seed k) : j = k :=
  walk_injOn (by decide) hj hk (walk_eq_of_word_eq hword)

/-- Two words drawn one after the other are different, however many were drawn before. -/
lemma word_succ_ne (seed : UInt64) (k : ℕ) : word seed (k + 1) ≠ word seed k := by
  intro hword
  exact walk_succ_ne (by decide) (walk_eq_of_word_eq hword)

/-! ### Filling an array with words -/

/-- The order in which a machine stores the bytes of a word. -/
inductive ByteOrder
  | little
  | big

/-- The lowest bytes of a word, the lowest one first. -/
def lowBytes : ℕ → UInt64 → ByteString
  | 0, _ => []
  | k + 1, chunk => chunk.toUInt8 :: lowBytes k (chunk >>> 8)

/-- What `std::memcpy` reads from a word. -/
def wordBytes : ByteOrder → UInt64 → ByteString
  | .little, chunk => lowBytes 8 chunk
  | .big, chunk => (lowBytes 8 chunk).reverse

/-- The loop of `fillRandomBytes` over so many bytes, for the arrays that are no whole words. -/
def fillRandomBytesLoop : ℕ → UInt64 → ℕ → Generator seed → ByteString × Generator seed
  | 0, _, _, g => ([], g)
  | todo + 1, _, 0, g =>
    let (chunk, g) := g.nextRandom64
    let (bytes, g) := fillRandomBytesLoop todo (chunk >>> 8) 7 g
    (chunk.toUInt8 :: bytes, g)
  | todo + 1, chunk, remaining + 1, g =>
    let (bytes, g) := fillRandomBytesLoop todo (chunk >>> 8) remaining g
    (chunk.toUInt8 :: bytes, g)

/-- `fillRandomBytes`: the bytes of the array, all of which are overwritten. -/
def fillRandomBytes (order : ByteOrder) (n : ℕ) (g : Generator seed) :
    ByteString × Generator seed :=
  if n = 8 then
    let (chunk, g) := g.nextRandom64
    (wordBytes order chunk, g)
  else if n = 8 * 2 then
    let (first, g) := g.nextRandom64
    let (second, g) := g.nextRandom64
    (wordBytes order first ++ wordBytes order second, g)
  else fillRandomBytesLoop n 0 0 g

/-- The lowest bytes are as many as asked for. -/
@[simp] lemma length_lowBytes (k : ℕ) (chunk : UInt64) : (lowBytes k chunk).length = k := by
  induction k generalizing chunk with
  | zero => rfl
  | succ k ih => rw [lowBytes, List.length_cons, ih]

/-- A word has eight bytes. -/
@[simp] lemma length_wordBytes (order : ByteOrder) (chunk : UInt64) :
    (wordBytes order chunk).length = 8 := by
  cases order with
  | little => exact length_lowBytes 8 chunk
  | big => rw [wordBytes, List.length_reverse, length_lowBytes]

/-- The loop fills as many bytes as it is asked for. -/
lemma length_fillRandomBytesLoop (todo : ℕ) (chunk : UInt64) (remaining : ℕ) (g : Generator seed) :
    (fillRandomBytesLoop todo chunk remaining g).1.length = todo := by
  fun_induction fillRandomBytesLoop todo chunk remaining g <;> simp_all

/-- The array is filled. -/
lemma length_fillRandomBytes (order : ByteOrder) (n : ℕ) (g : Generator seed) :
    (fillRandomBytes order n g).1.length = n := by
  unfold fillRandomBytes
  split_ifs with hone htwo
  · rw [length_wordBytes, hone]
  · rw [List.length_append, length_wordBytes, length_wordBytes, htwo]
  · exact length_fillRandomBytesLoop n 0 0 g

/-- The lowest bytes of a word determine its lowest bits. -/
lemma mod_eq_of_lowBytes_eq {k : ℕ} {x y : UInt64} (hxy : lowBytes k x = lowBytes k y) :
    x.toNat % 256 ^ k = y.toNat % 256 ^ k := by
  induction k generalizing x y with
  | zero => rw [pow_zero, Nat.mod_one, Nat.mod_one]
  | succ k ih =>
    obtain ⟨hbyte, hrest⟩ := List.cons_eq_cons.mp hxy
    have hhigh := ih hrest
    have hlow := congrArg UInt8.toNat hbyte
    rw [UInt64.toNat_shiftRight, UInt64.toNat_shiftRight] at hhigh
    rw [UInt64.toNat_toUInt8, UInt64.toNat_toUInt8] at hlow
    have hshift : ∀ m : ℕ, m >>> (UInt64.toNat 8 % 64) = m / 256 := fun m =>
      Nat.shiftRight_eq_div_pow m 8
    rw [hshift, hshift] at hhigh
    rw [pow_succ', Nat.mod_mul, Nat.mod_mul, hlow, hhigh]

/-- The bytes of a word determine it. -/
lemma wordBytes_injective (order : ByteOrder) : Function.Injective (wordBytes order) := by
  intro x y hxy
  have hlow : lowBytes 8 x = lowBytes 8 y := by
    cases order with
    | little => exact hxy
    | big => exact List.reverse_injective hxy
  have hmod := mod_eq_of_lowBytes_eq hlow
  have hlt : ∀ chunk : UInt64, chunk.toNat < 256 ^ 8 := fun chunk => chunk.toNat_lt
  rw [Nat.mod_eq_of_lt (hlt x), Nat.mod_eq_of_lt (hlt y)] at hmod
  exact UInt64.toNat_inj.mp hmod

/-- Bytes that are all zero come from the word zero. -/
lemma eq_zero_of_wordBytes {order : ByteOrder} {chunk : UInt64}
    (hzero : hasNonZeroByte (wordBytes order chunk) = false) : chunk = 0 := by
  have hall : ∀ b ∈ wordBytes order chunk, b = 0 := by simpa [hasNonZeroByte] using hzero
  have hreplicate : wordBytes order chunk = List.replicate 8 0 :=
    List.eq_replicate_iff.mpr ⟨length_wordBytes order chunk, hall⟩
  have hnone : wordBytes order 0 = List.replicate 8 0 := by
    cases order with
    | little => decide
    | big => decide
  exact wordBytes_injective order (hreplicate.trans hnone.symm)

/-- An identifier is filled with the word drawn next, in its first eight bytes. -/
lemma fillRandomBytes_first (order : ByteOrder) {n : ℕ} (hn : n = 8 ∨ n = 8 * 2)
    (g : Generator seed) :
    (fillRandomBytes order n g).1.take 8 = wordBytes order (word seed (g.drawn + 1)) ∧
      g.drawn + n / 8 = (fillRandomBytes order n g).2.drawn := by
  rcases hn with rfl | rfl
  · simp [fillRandomBytes, nextRandom64_fst, List.take_of_length_le]
  · simp [fillRandomBytes, nextRandom64_fst]

/-! ### Drawing an identifier -/

/-- The loop of `makeRandomTraceId` and `makeRandomSpanId`: an array is filled until it is not all
zeros. -/
def makeRandom (order : ByteOrder) (n : ℕ) :
    ℕ → Generator seed → Option (Identifier n × Generator seed)
  | 0, _ => none
  | fuel + 1, g =>
    let filled := fillRandomBytes order n g
    if !hasNonZeroByte filled.1 then makeRandom order n fuel filled.2
    else some (⟨⟨filled.1, length_fillRandomBytes order n g⟩⟩, filled.2)

/-- `detail::makeRandomTraceId`. -/
def makeRandomTraceId (order : ByteOrder) (fuel : ℕ) (g : Generator seed) :
    Option (TraceId × Generator seed) := makeRandom order TraceId.kByteLength fuel g

/-- `detail::makeRandomSpanId`. -/
def makeRandomSpanId (order : ByteOrder) (fuel : ℕ) (g : Generator seed) :
    Option (SpanId × Generator seed) := makeRandom order SpanId.kByteLength fuel g

/-- One pass of the loop is enough if it does not fill in zeros. -/
lemma makeRandom_succ {order : ByteOrder} {n : ℕ} (fuel : ℕ) {g : Generator seed}
    (hfill : hasNonZeroByte (fillRandomBytes order n g).1 = true) :
    makeRandom order n (fuel + 1) g =
      some (⟨⟨_, length_fillRandomBytes order n g⟩⟩, (fillRandomBytes order n g).2) := by
  rw [makeRandom]
  simp only [hfill, Bool.not_true, Bool.false_eq_true, if_false]

/-- A pass that fills in zeros is repeated. -/
lemma makeRandom_succ_of_zero {order : ByteOrder} {n : ℕ} (fuel : ℕ) {g : Generator seed}
    (hfill : hasNonZeroByte (fillRandomBytes order n g).1 = false) :
    makeRandom order n (fuel + 1) g = makeRandom order n fuel (fillRandomBytes order n g).2 := by
  rw [makeRandom]
  simp only [hfill, Bool.not_false, if_true]

/-- More fuel changes nothing. -/
lemma makeRandom_of_le {order : ByteOrder} {n fuel fuel' : ℕ} {g : Generator seed}
    {result : Identifier n × Generator seed} (hmake : makeRandom order n fuel g = some result)
    (hfuel : fuel ≤ fuel') : makeRandom order n fuel' g = some result := by
  induction fuel generalizing fuel' g with
  | zero => cases hmake
  | succ fuel ih =>
    obtain ⟨fuel', rfl⟩ := Nat.exists_eq_add_of_le' (Nat.le_trans (Nat.le_add_left 1 fuel) hfuel)
    cases hfill : hasNonZeroByte (fillRandomBytes order n g).1 with
    | true =>
      rw [makeRandom_succ fuel hfill] at hmake
      rw [makeRandom_succ fuel' hfill, hmake]
    | false =>
      rw [makeRandom_succ_of_zero fuel hfill] at hmake
      rw [makeRandom_succ_of_zero fuel' hfill]
      exact ih hmake (Nat.le_of_succ_le_succ hfuel)

/-- `DrawnBetween order seed lo hi bytes`: the first eight bytes are a word drawn after the first
`lo` words and among the first `hi`. -/
def DrawnBetween (order : ByteOrder) (seed : UInt64) (lo hi : ℕ) (bytes : ByteString) : Prop :=
  ∃ k, lo < k ∧ k ≤ hi ∧ bytes.take 8 = wordBytes order (word seed k)

/-- The words drawn between two moments were drawn between any earlier and any later one. -/
lemma DrawnBetween.mono {order : ByteOrder} {lo lo' hi hi' : ℕ} {bytes : ByteString}
    (hdrawn : DrawnBetween order seed lo hi bytes) (hlo : lo' ≤ lo) (hhi : hi ≤ hi') :
    DrawnBetween order seed lo' hi' bytes := by
  obtain ⟨k, hk, hk', hbytes⟩ := hdrawn
  exact ⟨k, Nat.lt_of_le_of_lt hlo hk, Nat.le_trans hk' hhi, hbytes⟩

/-- What is drawn later is different, until the generator comes round. -/
lemma DrawnBetween.ne {order : ByteOrder} {lo mid hi : ℕ} {bytes bytes' : ByteString}
    (hdrawn : DrawnBetween order seed lo mid bytes)
    (hdrawn' : DrawnBetween order seed mid hi bytes') (hhi : hi < 2 ^ 64) : bytes ≠ bytes' := by
  rintro rfl
  obtain ⟨k, -, hk, hbytes⟩ := hdrawn
  obtain ⟨k', hk', hhi', hbytes'⟩ := hdrawn'
  have hword := wordBytes_injective order (hbytes.symm.trans hbytes')
  have heq := word_injOn (by omega) (by omega) hword
  omega

/-- What the loop returns is valid and was drawn while it ran. -/
lemma makeRandom_spec {order : ByteOrder} {n : ℕ} (hn : n = 8 ∨ n = 8 * 2) {fuel : ℕ}
    {g g' : Generator seed} {id : Identifier n}
    (hmake : makeRandom order n fuel g = some (id, g')) :
    id.isValid = true ∧ g.drawn ≤ g'.drawn ∧
      DrawnBetween order seed g.drawn g'.drawn id.bytes.toList := by
  induction fuel generalizing g with
  | zero => cases hmake
  | succ fuel ih =>
    obtain ⟨hfirst, hdrawn⟩ := fillRandomBytes_first order hn g
    cases hfill : hasNonZeroByte (fillRandomBytes order n g).1 with
    | true =>
      rw [makeRandom_succ fuel hfill] at hmake
      obtain ⟨rfl, rfl⟩ := Prod.mk.inj (Option.some.inj hmake)
      exact ⟨hfill, by omega, g.drawn + 1, by omega, by omega, hfirst⟩
    | false =>
      rw [makeRandom_succ_of_zero fuel hfill] at hmake
      obtain ⟨hvalid, hle, hbetween⟩ := ih hmake
      exact ⟨hvalid, by omega, hbetween.mono (by omega) (Nat.le_refl _)⟩

/-- An array whose first word is not zero is not all zeros. -/
lemma hasNonZeroByte_of_first {order : ByteOrder} {bytes : ByteString} {chunk : UInt64}
    (hfirst : bytes.take 8 = wordBytes order chunk) (hchunk : chunk ≠ 0) :
    hasNonZeroByte bytes = true := by
  by_contra hzero
  have hall : ∀ b ∈ bytes, b = 0 := by simpa [hasNonZeroByte] using hzero
  refine hchunk (@eq_zero_of_wordBytes order chunk ?_)
  rw [← hfirst]
  simpa [hasNonZeroByte] using fun b hb => hall b (List.mem_of_mem_take hb)

/-- The loop of `makeRandomSpanId` draws at most two words, as they are not both zero. -/
lemma makeRandomSpanId_two (order : ByteOrder) (g : Generator seed) :
    ∃ (id : SpanId) (g' : Generator seed),
      makeRandomSpanId order 2 g = some (id, g') ∧ g'.drawn ≤ g.drawn + 2 := by
  obtain ⟨hfirst, hdrawn⟩ := fillRandomBytes_first order (Or.inl rfl) g
  cases hfill : hasNonZeroByte (fillRandomBytes order 8 g).1 with
  | true =>
    have hle : (fillRandomBytes order 8 g).2.drawn ≤ g.drawn + 2 := by omega
    exact ⟨_, _, makeRandom_succ 1 hfill, hle⟩
  | false =>
    obtain ⟨hsecond, hdrawn'⟩ :=
      fillRandomBytes_first order (Or.inl rfl) (fillRandomBytes order 8 g).2
    have hzero : word seed (g.drawn + 1) = 0 := by
      by_contra hword
      rw [hasNonZeroByte_of_first hfirst hword] at hfill
      cases hfill
    have hword : word seed ((fillRandomBytes order 8 g).2.drawn + 1) ≠ 0 := by
      rw [← hdrawn, ← hzero]
      exact word_succ_ne seed (g.drawn + 1)
    have hretry := hasNonZeroByte_of_first hsecond hword
    refine ⟨_, _, (makeRandom_succ_of_zero 1 hfill).trans (makeRandom_succ 0 hretry), ?_⟩
    omega

/-- The loop of `makeRandomTraceId` fills the array once, as the two words are different. -/
lemma makeRandomTraceId_one (order : ByteOrder) (g : Generator seed) :
    ∃ (id : TraceId) (g' : Generator seed),
      makeRandomTraceId order 1 g = some (id, g') ∧ g'.drawn = g.drawn + 2 := by
  have hne : word seed (g.drawn + 1 + 1) ≠ word seed (g.drawn + 1) := word_succ_ne seed _
  have hwords : (fillRandomBytes order 16 g).1 = wordBytes order (word seed (g.drawn + 1)) ++
      wordBytes order (word seed (g.drawn + 1 + 1)) := by
    simp [fillRandomBytes, nextRandom64_fst]
  have hdrawn := (fillRandomBytes_first order (Or.inr rfl) g).2
  have hfill : hasNonZeroByte (fillRandomBytes order 16 g).1 = true := by
    by_contra hzero
    rw [hwords, hasNonZeroByte, List.any_append, Bool.or_eq_true, not_or] at hzero
    have hfirst := eq_zero_of_wordBytes (Bool.eq_false_iff.mpr hzero.1)
    have hsecond := eq_zero_of_wordBytes (Bool.eq_false_iff.mpr hzero.2)
    exact hne (hsecond.trans hfirst.symm)
  exact ⟨_, _, makeRandom_succ 0 hfill, hdrawn.symm⟩

/-! ### Sequences of calls -/

/-- A call that makes a random identifier. -/
inductive RandomCall
  | traceId
  | spanId
  deriving DecidableEq

/-- What such a call returns. -/
inductive RandomId
  | traceId (id : TraceId)
  | spanId (id : SpanId)

namespace RandomId

/-- The call that returns an identifier of this kind. -/
def call : RandomId → RandomCall
  | traceId _ => .traceId
  | spanId _ => .spanId

/-- The bytes of the identifier. -/
def bytes : RandomId → ByteString
  | traceId id => id.bytes.toList
  | spanId id => id.bytes.toList

/-- `isValid` of the identifier. -/
def isValid : RandomId → Bool
  | traceId id => id.isValid
  | spanId id => id.isValid

/-- The identifier, if it is one of a trace. -/
def traceId? : RandomId → Option TraceId
  | traceId id => some id
  | spanId _ => none

/-- The identifier, if it is one of a span. -/
def spanId? : RandomId → Option SpanId
  | traceId _ => none
  | spanId id => some id

/-- The bytes of the identifier of a trace. -/
lemma bytes_of_traceId? {id : RandomId} {trace : TraceId} (hid : id.traceId? = some trace) :
    id.bytes = trace.bytes.toList := by
  cases id with
  | traceId id => rw [← Option.some.inj hid, bytes]
  | spanId id => cases hid

/-- The bytes of the identifier of a span. -/
lemma bytes_of_spanId? {id : RandomId} {span : SpanId} (hid : id.spanId? = some span) :
    id.bytes = span.bytes.toList := by
  cases id with
  | traceId id => cases hid
  | spanId id => rw [← Option.some.inj hid, bytes]

end RandomId

/-- `TraceId::random` and `SpanId::random`. -/
def random (order : ByteOrder) (fuel : ℕ) (g : Generator seed) :
    RandomCall → Option (RandomId × Generator seed)
  | .traceId => (makeRandomTraceId order fuel g).map fun (id, g) => (.traceId id, g)
  | .spanId => (makeRandomSpanId order fuel g).map fun (id, g) => (.spanId id, g)

/-- What the calls of a thread return, one after the other. -/
def randomIds (order : ByteOrder) (fuel : ℕ) :
    List RandomCall → Generator seed → Option (List RandomId × Generator seed)
  | [], g => some ([], g)
  | call :: calls, g => do
    let (id, g) ← random order fuel g call
    let (ids, g) ← randomIds order fuel calls g
    return (id :: ids, g)

/-- A call returns within two passes of its loop. -/
lemma exists_random {order : ByteOrder} {fuel : ℕ} (hfuel : 2 ≤ fuel) (g : Generator seed)
    (call : RandomCall) : ∃ id g', random order fuel g call = some (id, g') ∧ id.call = call := by
  cases call with
  | traceId =>
    obtain ⟨id, g', hmake, -⟩ := makeRandomTraceId_one order g
    have hmake' : makeRandomTraceId order fuel g = some (id, g') :=
      makeRandom_of_le hmake (by omega)
    exact ⟨.traceId id, g', by rw [random, hmake', Option.map_some], rfl⟩
  | spanId =>
    obtain ⟨id, g', hmake, -⟩ := makeRandomSpanId_two order g
    have hmake' : makeRandomSpanId order fuel g = some (id, g') := makeRandom_of_le hmake hfuel
    exact ⟨.spanId id, g', by rw [random, hmake', Option.map_some], rfl⟩

/-- What a call returns is valid and was drawn while it ran. -/
lemma random_spec {order : ByteOrder} {fuel : ℕ} {g g' : Generator seed} {call : RandomCall}
    {id : RandomId} (hrandom : random order fuel g call = some (id, g')) :
    id.isValid = true ∧ g.drawn ≤ g'.drawn ∧ DrawnBetween order seed g.drawn g'.drawn id.bytes := by
  cases call with
  | traceId =>
    obtain ⟨⟨trace, last⟩, hmake, heq⟩ := Option.map_eq_some_iff.mp hrandom
    obtain ⟨rfl, rfl⟩ := Prod.mk.inj heq
    exact makeRandom_spec (Or.inr rfl) hmake
  | spanId =>
    obtain ⟨⟨span, last⟩, hmake, heq⟩ := Option.map_eq_some_iff.mp hrandom
    obtain ⟨rfl, rfl⟩ := Prod.mk.inj heq
    exact makeRandom_spec (Or.inl rfl) hmake

/-- What a sequence of calls returns, one call first. -/
lemma randomIds_cons {order : ByteOrder} {fuel : ℕ} {g g' : Generator seed} {call : RandomCall}
    {calls : List RandomCall} {id : RandomId} (hrandom : random order fuel g call = some (id, g')) :
    randomIds order fuel (call :: calls) g =
      (randomIds order fuel calls g').map fun (ids, g) => (id :: ids, g) := by
  rw [randomIds, hrandom]
  simp only [Option.bind_eq_bind, Option.bind_some]
  cases randomIds order fuel calls g' with
  | none => rfl
  | some rest => rfl

/-- Every sequence of calls returns, with an identifier for each of the calls: all are valid, and
as long as the generator has not come round, no two of them begin with the same word. -/
lemma exists_randomIds (order : ByteOrder) {fuel : ℕ} (hfuel : 2 ≤ fuel) (calls : List RandomCall)
    (g : Generator seed) : ∃ ids g', randomIds order fuel calls g = some (ids, g') ∧
      ids.map RandomId.call = calls ∧ (∀ id ∈ ids, id.isValid = true) ∧ g.drawn ≤ g'.drawn ∧
      (∀ id ∈ ids, DrawnBetween order seed g.drawn g'.drawn id.bytes) ∧
      (g'.drawn < 2 ^ 64 → ids.Pairwise fun id id' => id.bytes ≠ id'.bytes) := by
  induction calls generalizing g with
  | nil => exact ⟨[], g, rfl, rfl, by simp, Nat.le_refl _, by simp, fun _ => .nil⟩
  | cons call calls ih =>
    obtain ⟨id, mid, hrandom, hcall⟩ := exists_random hfuel g call
    obtain ⟨hvalid, hmid, hdrawn⟩ := random_spec hrandom
    obtain ⟨ids, last, hids, hcalls, hvalids, hlast, hdrawns, hpairwise⟩ := ih mid
    refine ⟨id :: ids, last, ?_, ?_, ?_, Nat.le_trans hmid hlast, ?_, fun hround => ?_⟩
    · rw [randomIds_cons hrandom, hids, Option.map_some]
    · rw [List.map_cons, hcall, hcalls]
    · exact List.forall_mem_cons.mpr ⟨hvalid, hvalids⟩
    · refine List.forall_mem_cons.mpr ⟨hdrawn.mono (Nat.le_refl _) hlast, fun id' hid' => ?_⟩
      exact (hdrawns id' hid').mono hmid (Nat.le_refl _)
    · refine .cons (fun id' hid' => ?_) (hpairwise hround)
      exact hdrawn.ne (hdrawns id' hid') hround

/-- Random identifiers are valid and do not repeat.  Whatever was drawn before, the identifier of a
trace takes one pass of its loop and that of a span at most two; and for every seed and every
sequence of calls that draws fewer than `2 ^ 64` words, no identifier is returned twice. -/
theorem randomIds_valid_and_distinct (order : ByteOrder) (seed : UInt64) :
    (∀ g : Generator seed,
      (∃ (id : TraceId) (g' : Generator seed),
        makeRandomTraceId order 1 g = some (id, g') ∧ g'.drawn = g.drawn + 2) ∧
      ∃ (id : SpanId) (g' : Generator seed),
        makeRandomSpanId order 2 g = some (id, g') ∧ g'.drawn ≤ g.drawn + 2) ∧
    ∀ (calls : List RandomCall) (fuel : ℕ), 2 ≤ fuel →
      ∃ (ids : List RandomId) (g : Generator seed),
        randomIds order fuel calls (Generator.seeded seed) = some (ids, g) ∧
        ids.map RandomId.call = calls ∧ (∀ id ∈ ids, id.isValid = true) ∧
        (g.drawn < 2 ^ 64 →
          (ids.filterMap RandomId.traceId?).Nodup ∧ (ids.filterMap RandomId.spanId?).Nodup) := by
  refine ⟨fun g => ⟨makeRandomTraceId_one order g, makeRandomSpanId_two order g⟩, ?_⟩
  intro calls fuel hfuel
  obtain ⟨ids, g, hids, hcalls, hvalid, -, -, hpairwise⟩ :=
    exists_randomIds order hfuel calls (Generator.seeded seed)
  refine ⟨ids, g, hids, hcalls, hvalid, fun hround => ⟨?_, ?_⟩⟩
  · refine List.Pairwise.filterMap _ (fun id id' hne trace htrace trace' htrace' heq => ?_)
      (hpairwise hround)
    rw [RandomId.bytes_of_traceId? htrace, RandomId.bytes_of_traceId? htrace', heq] at hne
    exact hne rfl
  · refine List.Pairwise.filterMap _ (fun id id' hne span hspan span' hspan' heq => ?_)
      (hpairwise hround)
    rw [RandomId.bytes_of_spanId? hspan, RandomId.bytes_of_spanId? hspan', heq] at hne
    exact hne rfl

end GalayTracing
