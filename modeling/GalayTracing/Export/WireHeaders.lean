import GalayTracing.Export.OtlpPipeline
import Mathlib.Data.List.AList
import Mathlib.Data.List.Find

/-!
# The headers of a request

The exporter gives the transport a list of headers, in which a name may occur more than once and in
any case.  The transport makes a map of them: the last value given to a name counts, the content
type is taken out, and four headers get a value of their own if the list has none of their name, in
whatever case.  The content type and the map are handed to `post` of galay-http; what they hold is
determined for every name (`isWireHeaders_wireHeaders`).
-/

namespace GalayTracing

namespace OtlpHttpExporter

/-- The members of `galay::http::HttpUrl` that the transport reads. -/
structure HttpUrl where
  host : ByteString
  port : ℕ
  path : ByteString
  isSecure : Bool
  deriving DecidableEq

/-- `std::map<std::string, std::string>`. -/
abbrev HeaderMap := AList fun _ : ByteString => ByteString

/-- `hasMappedHeader`. -/
def hasMappedHeader (headers : HeaderMap) (name : ByteString) : Bool :=
  headers.entries.any fun entry => asciiEqualsIgnoreCase entry.1 name

/-- `endpointHostHeader`. -/
def endpointHostHeader (url : HttpUrl) : ByteString :=
  let defaultPort := (!url.isSecure && url.port == 80) || (url.isSecure && url.port == 443)
  if defaultPort then url.host else url.host ++ ascii ":" ++ ascii (toString url.port)

/-- A header that `sendWithGalayHttp` adds if `headers` has none of the name `lower`. -/
structure DefaultHeader where
  lower : ByteString
  name : ByteString
  value : ByteString

/-- The default is added. -/
def DefaultHeader.addTo (d : DefaultHeader) (headers : HeaderMap) : HeaderMap :=
  if !hasMappedHeader headers d.lower then headers.insert d.name d.value else headers

/-- The headers that `sendWithGalayHttp` adds, in its order. -/
def defaultHeaders (url : HttpUrl) : List DefaultHeader :=
  [⟨ascii "host", ascii "Host", endpointHostHeader url⟩,
    ⟨ascii "accept", ascii "Accept", ascii "application/json"⟩,
    ⟨ascii "user-agent", ascii "User-Agent", ascii "galay-tracing"⟩,
    ⟨ascii "connection", ascii "Connection", ascii "close"⟩]

/-- The loop of `sendWithGalayHttp` over the headers of the request: `content_type` and
`headers`. -/
def mapHeaders : List OtlpHttpHeader → ByteString × HeaderMap → ByteString × HeaderMap
  | [], mapped => mapped
  | header :: rest, (contentType, headers) =>
    if asciiEqualsIgnoreCase header.name (ascii "content-type") then
      mapHeaders rest (header.value, headers)
    else mapHeaders rest (contentType, headers.insert header.name header.value)

/-- What `sendWithGalayHttp` hands to `post`: the content type and the headers. -/
def wireHeaders (url : HttpUrl) (headers : List OtlpHttpHeader) : ByteString × HeaderMap :=
  let (contentType, headers) := mapHeaders headers (ascii "application/json", ∅)
  (contentType, (defaultHeaders url).foldl (fun headers d => d.addTo headers) headers)

/-! ### Names up to their case -/

/-- The name is that of the content type. -/
def IsContentType (name : ByteString) : Prop := asciiEqualsIgnoreCase name (ascii "content-type")

instance (name : ByteString) : Decidable (IsContentType name) :=
  inferInstanceAs (Decidable (_ = true))

/-- Names are equal up to their case if they are equal in lower case. -/
lemma asciiEqualsIgnoreCase_iff {lhs rhs : ByteString} :
    asciiEqualsIgnoreCase lhs rhs = true ↔ lhs.map toLower = rhs.map toLower := by
  unfold asciiEqualsIgnoreCase
  induction lhs generalizing rhs with
  | nil =>
    cases rhs with
    | nil => simp
    | cons b rhs => simp
  | cons a lhs ih =>
    cases rhs with
    | nil => simp
    | cons b rhs =>
      have hlengths : (a :: lhs).length ≠ (b :: rhs).length ↔ lhs.length ≠ rhs.length := by simp
      simp only [hlengths, List.zip_cons_cons, List.all_cons, List.map_cons, List.cons.injEq, ← ih]
      by_cases hlength : lhs.length = rhs.length
      · simp [hlength]
      · simp [hlength]

/-- The last value that a list of headers gives to a name. -/
def lastValue (headers : List OtlpHttpHeader) (p : ByteString → Bool) : Option ByteString :=
  (headers.filter fun header => p header.name).getLast?.map (·.value)

/-- The first header of a list counts only if the others have no value. -/
lemma lastValue_cons (header : OtlpHttpHeader) (rest : List OtlpHttpHeader)
    (p : ByteString → Bool) : lastValue (header :: rest) p =
      ((lastValue rest p).or (if p header.name then some header.value else none)) := by
  unfold lastValue
  cases hp : p header.name with
  | false => simp [hp]
  | true =>
    rw [List.filter_cons, if_pos hp, List.getLast?_cons]
    cases (rest.filter fun header => p header.name).getLast? with
    | none => simp
    | some last => simp

/-- A name with a value occurs in the list. -/
lemma exists_of_lastValue {headers : List OtlpHttpHeader} {p : ByteString → Bool}
    {value : ByteString} (hlast : lastValue headers p = some value) :
    ∃ header ∈ headers, p header.name = true := by
  obtain ⟨header, hheader, -⟩ := Option.map_eq_some_iff.mp hlast
  have hmem := List.mem_filter.mp (List.mem_of_getLast? hheader)
  exact ⟨header, hmem.1, hmem.2⟩

/-- A name that occurs in the list has a value. -/
lemma isSome_lastValue {headers : List OtlpHttpHeader} {p : ByteString → Bool}
    {header : OtlpHttpHeader} (hmem : header ∈ headers) (hp : p header.name = true) :
    (lastValue headers p).isSome = true := by
  have hfiltered : header ∈ headers.filter fun header => p header.name :=
    List.mem_filter.mpr ⟨hmem, hp⟩
  rw [lastValue, Option.isSome_map, Option.isSome_iff_ne_none, Ne, List.getLast?_eq_none_iff]
  exact List.ne_nil_of_mem hfiltered

/-! ### What the map holds -/

/-- The content type after the loop. -/
lemma mapHeaders_fst (given : List OtlpHttpHeader) (contentType : ByteString)
    (headers : HeaderMap) : (mapHeaders given (contentType, headers)).1 =
      (lastValue given (asciiEqualsIgnoreCase · (ascii "content-type"))).getD contentType := by
  induction given generalizing contentType headers with
  | nil => rfl
  | cons header rest ih =>
    rw [mapHeaders, lastValue_cons]
    split_ifs with hcontent
    · rw [ih]
      cases lastValue rest _ <;> rfl
    · rw [ih]
      cases lastValue rest _ <;> rfl

/-- The values after the loop. -/
lemma mapHeaders_lookup (given : List OtlpHttpHeader) (contentType : ByteString)
    (headers : HeaderMap) (name : ByteString) :
    ((mapHeaders given (contentType, headers)).2.lookup name) =
      if IsContentType name then headers.lookup name
      else (lastValue given (· == name)).or (headers.lookup name) := by
  induction given generalizing contentType headers with
  | nil => simp [mapHeaders, lastValue]
  | cons header rest ih =>
    rw [mapHeaders, lastValue_cons]
    by_cases hcontent : asciiEqualsIgnoreCase header.name (ascii "content-type") = true
    · rw [if_pos hcontent, ih]
      split_ifs with hname heq
      · rfl
      · exact absurd (eq_of_beq heq ▸ hcontent) hname
      · simp
    · rw [if_neg hcontent, ih]
      split_ifs with hname heq
      · exact AList.lookup_insert_ne fun heq => hcontent (heq ▸ hname)
      · rw [eq_of_beq heq, AList.lookup_insert, Option.or_assoc, Option.some_or]
      · rw [AList.lookup_insert_ne fun h => heq (by simp [h]), Option.or_none]

/-- A header is in the map, in some case, exactly if some name in that case has a value. -/
lemma hasMappedHeader_iff {headers : HeaderMap} {name : ByteString} :
    hasMappedHeader headers name = true ↔
      ∃ key, (headers.lookup key).isSome = true ∧ asciiEqualsIgnoreCase key name = true := by
  rw [hasMappedHeader, List.any_eq_true]
  constructor
  · rintro ⟨entry, hmem, heq⟩
    exact ⟨entry.1, AList.lookup_isSome.mpr (List.mem_map_of_mem hmem), heq⟩
  · rintro ⟨key, hsome, heq⟩
    obtain ⟨value, hvalue⟩ := Option.isSome_iff_exists.mp hsome
    exact ⟨⟨key, value⟩, AList.mem_lookup_iff.mp hvalue, heq⟩

/-- What adding a default does to the value of a name. -/
lemma lookup_addTo (d : DefaultHeader) (headers : HeaderMap) (name : ByteString) :
    (d.addTo headers).lookup name =
      if d.name == name && !hasMappedHeader headers d.lower then some d.value
      else headers.lookup name := by
  unfold DefaultHeader.addTo
  cases hmapped : hasMappedHeader headers d.lower with
  | true => simp
  | false =>
    rcases eq_or_ne name d.name with rfl | hne
    · simp
    · simp [AList.lookup_insert_ne hne, hne.symm]

/-- A default of another name does not change whether a name is mapped. -/
lemma hasMappedHeader_addTo {d : DefaultHeader} {headers : HeaderMap} {name : ByteString}
    (hother : asciiEqualsIgnoreCase d.name name = false) :
    hasMappedHeader (d.addTo headers) name = hasMappedHeader headers name := by
  refine Bool.eq_iff_iff.mpr ?_
  rw [hasMappedHeader_iff, hasMappedHeader_iff]
  refine exists_congr fun key => and_congr_left fun heq => ?_
  have hne : (d.name == key) = false := beq_false_of_ne fun h => by
    rw [h, heq] at hother
    cases hother
  rw [lookup_addTo, hne, Bool.false_and, if_neg Bool.false_ne_true]

/-- Defaults whose names are different up to their case. -/
def Unrelated (ds : List DefaultHeader) : Prop :=
  ds.Pairwise fun d d' => asciiEqualsIgnoreCase d.name d'.lower = false ∧ d.name ≠ d'.name

instance (ds : List DefaultHeader) : Decidable (Unrelated ds) :=
  inferInstanceAs (Decidable (ds.Pairwise _))

/-- The values after all defaults have been added. -/
lemma lookup_foldl_addTo {ds : List DefaultHeader} (hds : Unrelated ds) (headers : HeaderMap)
    (name : ByteString) :
    (ds.foldl (fun headers d => d.addTo headers) headers).lookup name =
      match ds.find? fun d => d.name == name && !hasMappedHeader headers d.lower with
      | some d => some d.value
      | none => headers.lookup name := by
  induction ds generalizing headers with
  | nil => rfl
  | cons d ds ih =>
    obtain ⟨hd, hds⟩ := List.pairwise_cons.mp hds
    have hfind : (ds.find? fun d' =>
        d'.name == name && !hasMappedHeader (d.addTo headers) d'.lower) =
        ds.find? fun d' => d'.name == name && !hasMappedHeader headers d'.lower :=
      List.find?_congr fun d' hd' => by rw [hasMappedHeader_addTo (hd d' hd').1]
    rw [List.foldl_cons, ih hds, hfind, lookup_addTo, List.find?_cons]
    cases hadd : d.name == name && !hasMappedHeader headers d.lower with
    | false => simp
    | true =>
      have hname : d.name = name := eq_of_beq (Bool.and_eq_true_iff.mp hadd).1
      have hnone : ds.find? (fun d' => d'.name == name && !hasMappedHeader headers d'.lower) =
          none := by
        refine List.find?_eq_none.mpr fun d' hd' => ?_
        simp [← hname, (hd d' hd').2.symm]
      rw [hnone, if_pos rfl]

/-- What the content type and the headers are that are handed to `post`, for every name. -/
structure IsWireHeaders (url : HttpUrl) (given : List OtlpHttpHeader)
    (wire : ByteString × HeaderMap) : Prop where
  /-- The content type is the last one given, in whatever case its name is. -/
  contentType : wire.1 = (lastValue given (asciiEqualsIgnoreCase · (ascii "content-type"))).getD
    (ascii "application/json")
  /-- It is not among the other headers. -/
  noContentType : ∀ name, IsContentType name → wire.2.lookup name = none
  /-- Every other header has the last value given to its name, or is a default of whose name, in
  whatever case, none is given. -/
  value : ∀ name, ¬IsContentType name → wire.2.lookup name =
    (lastValue given (· == name)).or (((defaultHeaders url).find? fun d => d.name == name &&
      !given.any fun header => asciiEqualsIgnoreCase header.name d.lower).map (·.value))

/-- The defaults are different from one another, and from the content type. -/
lemma unrelated_defaultHeaders (url : HttpUrl) : Unrelated (defaultHeaders url) ∧
    ∀ d ∈ defaultHeaders url, asciiEqualsIgnoreCase d.name d.lower = true ∧
      ¬IsContentType d.lower := by
  refine ⟨?_, ?_⟩
  · simp only [Unrelated, defaultHeaders, List.pairwise_cons, List.forall_mem_cons]
    decide
  · simp only [defaultHeaders, List.forall_mem_cons]
    decide

/-- The loop maps a name, in some case, exactly if a header of this name is given. -/
lemma hasMappedHeader_mapHeaders {given : List OtlpHttpHeader} {contentType lower : ByteString}
    (hlower : ¬IsContentType lower) :
    hasMappedHeader (mapHeaders given (contentType, ∅)).2 lower =
      given.any fun header => asciiEqualsIgnoreCase header.name lower := by
  have hother : ∀ key, asciiEqualsIgnoreCase key lower = true → ¬IsContentType key := by
    intro key hkey hcontent
    refine hlower (asciiEqualsIgnoreCase_iff.mpr ?_)
    rw [← asciiEqualsIgnoreCase_iff.mp hkey]
    exact asciiEqualsIgnoreCase_iff.mp hcontent
  refine Bool.eq_iff_iff.mpr ?_
  rw [hasMappedHeader_iff, List.any_eq_true]
  constructor
  · rintro ⟨key, hsome, heq⟩
    rw [mapHeaders_lookup, if_neg (hother key heq), AList.lookup_empty, Option.or_none] at hsome
    obtain ⟨value, hvalue⟩ := Option.isSome_iff_exists.mp hsome
    obtain ⟨header, hmem, hname⟩ := exists_of_lastValue hvalue
    exact ⟨header, hmem, eq_of_beq hname ▸ heq⟩
  · rintro ⟨header, hmem, heq⟩
    refine ⟨header.name, ?_, heq⟩
    rw [mapHeaders_lookup, if_neg (hother _ heq), AList.lookup_empty, Option.or_none]
    exact isSome_lastValue hmem (by simp)

/-- Whatever headers are given, every header handed to `post` of galay-http is the last one given of
its name, or a default where none is given, and the content type is not among them. -/
theorem isWireHeaders_wireHeaders (url : HttpUrl) (given : List OtlpHttpHeader) :
    IsWireHeaders url given (wireHeaders url given) := by
  obtain ⟨hunrelated, hdefaults⟩ := unrelated_defaultHeaders url
  set mapped := mapHeaders given (ascii "application/json", ∅) with hmapped
  have hwire : wireHeaders url given =
      (mapped.1, (defaultHeaders url).foldl (fun headers d => d.addTo headers) mapped.2) := rfl
  have hlookup : ∀ name, (wireHeaders url given).2.lookup name =
      match (defaultHeaders url).find? fun d => d.name == name &&
        !given.any fun header => asciiEqualsIgnoreCase header.name d.lower with
      | some d => some d.value
      | none => mapped.2.lookup name := by
    intro name
    have hfind : ((defaultHeaders url).find? fun d =>
        d.name == name && !hasMappedHeader mapped.2 d.lower) =
        (defaultHeaders url).find? fun d => d.name == name &&
          !given.any fun header => asciiEqualsIgnoreCase header.name d.lower :=
      List.find?_congr fun d hd => by rw [hmapped, hasMappedHeader_mapHeaders (hdefaults d hd).2]
    rw [hwire, lookup_foldl_addTo hunrelated, hfind]
  refine ⟨mapHeaders_fst given _ _, fun name hcontent => ?_, fun name hname => ?_⟩
  · have hnone : ((defaultHeaders url).find? fun d => d.name == name &&
        !given.any fun header => asciiEqualsIgnoreCase header.name d.lower) = none := by
      refine List.find?_eq_none.mpr fun d hd hfound => ?_
      obtain ⟨hsame, hother⟩ := hdefaults d hd
      obtain rfl : d.name = name := eq_of_beq (Bool.and_eq_true_iff.mp hfound).1
      refine hother (asciiEqualsIgnoreCase_iff.mpr ?_)
      rw [← asciiEqualsIgnoreCase_iff.mp hsame]
      exact asciiEqualsIgnoreCase_iff.mp hcontent
    rw [hlookup, hnone, hmapped, mapHeaders_lookup, if_pos hcontent, AList.lookup_empty]
  · rw [hlookup]
    cases hfind : (defaultHeaders url).find? fun d => d.name == name &&
        !given.any fun header => asciiEqualsIgnoreCase header.name d.lower with
    | none => rw [hmapped, mapHeaders_lookup, if_neg hname, AList.lookup_empty, Option.map_none]
    | some d =>
      obtain ⟨hsame, -⟩ := hdefaults d (List.mem_of_find?_eq_some hfind)
      have hfound := List.find?_some hfind
      rw [Bool.and_eq_true_iff] at hfound
      obtain rfl : d.name = name := eq_of_beq hfound.1
      have hnone : lastValue given (· == d.name) = none := by
        refine Option.eq_none_iff_forall_ne_some.mpr fun value hvalue => ?_
        obtain ⟨header, hmem, heq⟩ := exists_of_lastValue hvalue
        have hgiven : (given.any fun header => asciiEqualsIgnoreCase header.name d.lower) = true :=
          List.any_eq_true.mpr ⟨header, hmem, eq_of_beq heq ▸ hsame⟩
        rw [hgiven] at hfound
        cases hfound.2
      rw [hnone, Option.none_or, Option.map_some]

end OtlpHttpExporter

end GalayTracing
