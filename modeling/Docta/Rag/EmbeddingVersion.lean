/-
Module: Docta.Rag.EmbeddingVersion
Purpose: The version that stored embeddings carry, `model|dims|digest`, its two
  decoders, and the version of a retrieval that is built on it.
Trusted boundary: how a number prints is a parameter
Main exports: EmbeddingSettings, deriveEmbeddingVersion, declaredDimensions,
  newDenseRetriever, embedding_version_encoding
-/
import Docta.Library.Fields
import Docta.Library.JsonText
import Docta.Library.Sha256
import Docta.Library.Utf8Stream
import Mathlib.Data.List.Lex
import Mathlib.Data.List.Sort

namespace Docta

open Contract Fallible Fields JsonText

-- A quantifier over a list is decided along the list, not over all characters.
attribute [local instance (high)] List.decidableBAll

/-! ### The canonical JSON -/

/-- The code point of a character. -/
def Contract.JChar.codePoint : JChar → Nat
  | .scalar char => char.toNat
  | .surrogate index => 0xD800 + index

/-- Names are sorted by their code points. -/
def nameBefore {α : Type} (first second : JString × α) : Prop :=
  first.1.map JChar.codePoint ≤ second.1.map JChar.codePoint

instance {α : Type} : DecidableRel (@nameBefore α) :=
  fun first second => inferInstanceAs
    (Decidable (first.1.map JChar.codePoint ≤ second.1.map JChar.codePoint))

section Canonical

variable {ν : Type}

mutual

/-- `sort_keys=True` -/
def sortKeys : Tree ν → Tree ν
  | .arr items => .arr (sortKeysItems items)
  | .obj fields => .obj ((sortKeysFields fields).insertionSort nameBefore)
  | flat => flat

def sortKeysItems : List (Tree ν) → List (Tree ν)
  | [] => []
  | item :: rest => sortKeys item :: sortKeysItems rest

def sortKeysFields : List (JString × Tree ν) → List (JString × Tree ν)
  | [] => []
  | field :: rest => sortKeysField field :: sortKeysFields rest

def sortKeysField : JString × Tree ν → JString × Tree ν
  | (name, value) => (name, sortKeys value)

end

/-- `ensure_ascii=True`: what is not printable ASCII is escaped by code units. -/
def asciiEscape : JChar → List Char
  | .surrogate index => unitEscape (0xD800 + index)
  | .scalar char =>
      if ' ' ≤ char ∧ char ≤ '~' then [char]
      else if char.toNat < 0x10000 then unitEscape char.toNat
      else unitEscape (0xD800 + (char.toNat - 0x10000) / 1024) ++
        unitEscape (0xDC00 + (char.toNat - 0x10000) % 1024)

/-- `json.dumps(value, sort_keys=True, separators=(",", ":"), ensure_ascii=True)` -/
def dumpsAscii (numeral : ν → List Char) (value : Tree ν) : List Char :=
  (write numeral (sortKeys value)).flatMap asciiEscape

end Canonical

/-! ### The version of an embedder -/

/-- What a version is derived from. -/
structure EmbeddingSettings (ν : Type) where
  model : String
  dimensions : Nat
  queryTemplate : String := "\x7btext\x7d"
  documentTemplate : String := "\x7btext\x7d"
  inputType : String := "off"
  providerRouting : Option (List (JString × Tree ν)) := none

/-- `MAX_EMBEDDING_VERSION_LENGTH` -/
def maxEmbeddingVersionLength : Nat := 200

/-- `MAX_EMBEDDING_DIMENSIONS` -/
def maxEmbeddingDimensions : Nat := 16000

/-- `_HASH_LENGTH` -/
def hashLength : Nat := 8

/-- `MAX_EMBED_MODEL_LENGTH` -/
def maxEmbedModelLength : Nat :=
  maxEmbeddingVersionLength - 2 - (Nat.toDigits 10 maxEmbeddingDimensions).length - hashLength

section Deriving

variable {ν : Type} (numeral : ν → List Char)

/-- The canonical JSON of the templates, the input type and the routing. -/
def EmbeddingSettings.canonical (settings : EmbeddingSettings ν) : List Char :=
  dumpsAscii numeral (.obj
    [(JString.ofString "query_template", .str (JString.ofString settings.queryTemplate)),
      (JString.ofString "document_template", .str (JString.ofString settings.documentTemplate)),
      (JString.ofString "input_type", .str (JString.ofString settings.inputType)),
      (JString.ofString "provider_routing",
        match settings.providerRouting with
        | some routing => .obj routing
        | none => .null)])

/-- The eight digits that stand for the canonical JSON. -/
def EmbeddingSettings.digest (settings : EmbeddingSettings ν) : List Char :=
  (Sha256.hexdigest (Utf8Stream.encode (settings.canonical numeral))).take hashLength

/-- The text `model|dims|digest`. -/
def EmbeddingSettings.version (settings : EmbeddingSettings ν) : List Char :=
  settings.model.toList ++ '|' :: Nat.toDigits 10 settings.dimensions ++ '|' ::
    settings.digest numeral

/-- `derive_embedding_version`, or the message of its `ValueError`. -/
def deriveEmbeddingVersion (settings : EmbeddingSettings ν) : Except String String := do
  failIf (maxEmbeddingVersionLength < (settings.version numeral).length)
    "embedding version exceeds the stored length"
  return String.ofList (settings.version numeral)

end Deriving

/-! ### The decoders -/

section Decoding

variable (decimals : Decimals)

/-- `int(version.rsplit("|", 2)[1])`, or nothing where it raises. -/
def declaredDimensions (version : String) : Option Int :=
  ((rsplit '|' 2 version.toList)[1]?).bind decimals.int

/-- `f"dense-cosine-top5-d{max_distance}-{embedder.version}"` for a threshold that
prints as given. -/
def retrievalVersion (threshold : List Char) (embedderVersion : String) : String :=
  String.ofList ("dense-cosine-top5-d".toList ++ threshold ++ '-' :: embedderVersion.toList)

/-- `DenseRetriever(database, embedder, max_distance)`: its version and its
dimension, or the message of its `ValueError`. -/
def newDenseRetriever (threshold : List Char) (embedderVersion : String) :
    Except String (String × Int) := do
  failIf (100 < (retrievalVersion threshold embedderVersion).length)
    "Retrieval version exceeds the stored length"
  match (fromEnd (embedderVersion.toList.splitOn '|') 2).bind decimals.int with
  | some dimensions => return (retrievalVersion threshold embedderVersion, dimensions)
  | none => .error "Embedding version does not declare its dimensions"

end Decoding

/-- The texts that numbers print as. -/
inductive Printed : List Char → Prop where
  | whole (sign digits : List Char) (signed : sign = [] ∨ sign = ['-']) (some : digits ≠ [])
      (ascii : ∀ char ∈ digits, char.isDigit = true) : Printed (sign ++ digits)
  | point (sign digits fraction : List Char) (signed : sign = [] ∨ sign = ['-'])
      (some : digits ≠ []) (ascii : ∀ char ∈ digits, char.isDigit = true)
      (asciiFraction : ∀ char ∈ fraction, char.isDigit = true) :
      Printed (sign ++ digits ++ '.' :: fraction)
  | exponent (mantissa power : List Char) : Printed (mantissa ++ 'e' :: power)
  | infinity (sign : List Char) (signed : sign = [] ∨ sign = ['-']) :
      Printed (sign ++ "inf".toList)
  | nan : Printed "nan".toList

/-! ### Both decoders read the dimension -/

section Versions

variable {ν : Type} {numeral : ν → List Char} {decimals : Decimals}

theorem isDigit_toDigits (value : Nat) :
    ∀ char ∈ Nat.toDigits 10 value, char.isDigit = true :=
  fun _ member => Nat.isDigit_of_mem_toDigits (by decide) (by decide) member

theorem bar_not_mem_digits {digits : List Char}
    (ascii : ∀ char ∈ digits, char.isDigit = true) : '|' ∉ digits :=
  fun member => absurd (ascii '|' member) (by decide)

theorem length_digest (settings : EmbeddingSettings ν) : (settings.digest numeral).length = 8 := by
  rw [EmbeddingSettings.digest, List.length_take, Sha256.length_hexdigest]
  rfl

theorem bar_not_mem_digest (numeral : ν → List Char) (settings : EmbeddingSettings ν) :
    '|' ∉ settings.digest numeral := by
  intro member
  have digit := Sha256.mem_hexDigits_of_mem_hexdigest (List.mem_of_mem_take member)
  exact absurd digit (by decide)

/-- The dimensions that can be stored print in five digits. -/
theorem length_dimensions {dimensions : Nat} (small : dimensions ≤ maxEmbeddingDimensions) :
    (Nat.toDigits 10 dimensions).length ≤ 5 := by
  rw [Nat.length_toDigits_le_iff (by decide) (by decide)]
  exact Nat.lt_of_le_of_lt small (by decide)

/-- A model name within its bound has a version that can be stored. -/
theorem length_version {settings : EmbeddingSettings ν}
    (short : settings.model.length ≤ maxEmbedModelLength)
    (small : settings.dimensions ≤ maxEmbeddingDimensions) :
    (settings.version numeral).length ≤ maxEmbeddingVersionLength := by
  have bound : maxEmbedModelLength = 185 := by decide +kernel
  have digits := length_dimensions small
  rw [bound] at short
  rw [EmbeddingSettings.version, List.length_append, List.length_cons, List.length_append,
    List.length_cons, length_digest, String.length_toList, maxEmbeddingVersionLength]
  omega

theorem derive_eq_ok {settings : EmbeddingSettings ν} {version : String} :
    deriveEmbeddingVersion numeral settings = .ok version ↔
      (settings.version numeral).length ≤ maxEmbeddingVersionLength ∧
        version.toList = settings.version numeral := by
  simp only [deriveEmbeddingVersion, bind_eq_ok, failIf_eq_ok, Nat.not_lt, exists_const, pure_eq_ok]
  constructor
  · rintro ⟨short, rfl⟩
    exact ⟨short, String.toList_ofList⟩
  · rintro ⟨short, isVersion⟩
    exact ⟨short, by rw [← isVersion, String.ofList_toList]⟩

/-- The worker's decoder reads a dimension of so few digits. -/
theorem declaredDimensions_of_digits {settings : EmbeddingSettings ν} {version : String}
    (isVersion : version.toList = settings.version numeral)
    (digits : (Nat.toDigits 10 settings.dimensions).length ≤ 4300) :
    declaredDimensions decimals version = some (settings.dimensions : Int) := by
  have last := cutLast_append (bar_not_mem_digest numeral settings)
    (settings.model.toList ++ '|' :: Nat.toDigits 10 settings.dimensions)
  have middle := cutLast_append (bar_not_mem_digits (isDigit_toDigits settings.dimensions))
    settings.model.toList
  rw [declaredDimensions, isVersion, EmbeddingSettings.version, rsplit, last]
  simp only
  rw [rsplit, middle]
  exact Decimals.int_toDigits digits

/-- The worker's decoder reads the dimension. -/
theorem declaredDimensions_version {settings : EmbeddingSettings ν} {version : String}
    (isVersion : version.toList = settings.version numeral)
    (small : settings.dimensions ≤ maxEmbeddingDimensions) :
    declaredDimensions decimals version = some (settings.dimensions : Int) := by
  have digits := length_dimensions small
  exact declaredDimensions_of_digits isVersion (by omega)

/-- It reads the dimension of every version that can be stored. -/
theorem declaredDimensions_derived {settings : EmbeddingSettings ν} {version : String}
    (derived : deriveEmbeddingVersion numeral settings = .ok version) :
    declaredDimensions decimals version = some (settings.dimensions : Int) := by
  obtain ⟨short, isVersion⟩ := derive_eq_ok.mp derived
  simp only [EmbeddingSettings.version, List.length_append, List.length_cons,
    maxEmbeddingVersionLength] at short
  exact declaredDimensions_of_digits isVersion (by omega)

/-- So does the retriever's. -/
theorem fromEnd_version {settings : EmbeddingSettings ν} {version : String}
    (isVersion : version.toList = settings.version numeral)
    (small : settings.dimensions ≤ maxEmbeddingDimensions) :
    (fromEnd (version.toList.splitOn '|') 2).bind decimals.int = some (settings.dimensions : Int) := by
  have digits := length_dimensions small
  rw [isVersion, EmbeddingSettings.version, List.splitOn_append_cons_self,
    List.splitOn_append_cons_self, List.splitOn_eq_singleton (bar_not_mem_digest numeral settings),
    List.splitOn_eq_singleton (bar_not_mem_digits (isDigit_toDigits settings.dimensions)), fromEnd]
  simp only [List.reverse_append, List.reverse_singleton, List.singleton_append]
  exact Decimals.int_toDigits (by omega)

/-- Settings with one version agree on all that the version shows. -/
theorem version_unique {first second : EmbeddingSettings ν}
    (same : first.version numeral = second.version numeral) :
    first.model = second.model ∧ first.dimensions = second.dimensions ∧
      first.digest numeral = second.digest numeral := by
  obtain ⟨sameFront, sameDigest⟩ := cutLast_unique (bar_not_mem_digest numeral first)
    (bar_not_mem_digest numeral second) same
  obtain ⟨sameModel, sameDigits⟩ := cutLast_unique
    (bar_not_mem_digits (isDigit_toDigits first.dimensions))
    (bar_not_mem_digits (isDigit_toDigits second.dimensions)) sameFront
  have sameNumber := congrArg (fun digits => Nat.ofDigitChars 10 digits 0) sameDigits
  simp only [Nat.ofDigitChars_ten_toDigits] at sameNumber
  exact ⟨String.toList_inj.mp sameModel, sameNumber, sameDigest⟩

/-! ### The version of a retrieval -/

/-- A text that prints without an exponent has no hyphen beyond its sign. -/
theorem Printed.body {text : List Char} (printed : Printed text) (plain : 'e' ∉ text) :
    ∃ sign body, text = sign ++ body ∧ (sign = [] ∨ sign = ['-']) ∧ body ≠ [] ∧ '-' ∉ body := by
  have noHyphen {digits : List Char} (ascii : ∀ char ∈ digits, char.isDigit = true) :
      '-' ∉ digits := fun member => absurd (ascii '-' member) (by decide)
  cases printed with
  | whole sign digits signed some ascii => exact ⟨sign, digits, rfl, signed, some, noHyphen ascii⟩
  | point sign digits fraction signed some ascii asciiFraction =>
      refine ⟨sign, digits ++ '.' :: fraction, List.append_assoc _ _ _, signed, by simp, ?_⟩
      rw [List.mem_append, List.mem_cons]
      rintro (inDigits | isPoint | inFraction)
      · exact noHyphen ascii inDigits
      · exact absurd isPoint (by decide)
      · exact noHyphen asciiFraction inFraction
  | exponent mantissa power => exact absurd (by simp) plain
  | infinity sign signed => exact ⟨sign, "inf".toList, rfl, signed, by decide, by decide⟩
  | nan => exact ⟨[], "nan".toList, rfl, .inl rfl, by decide, by decide⟩

/-- The threshold and the rest after it are determined by the text. -/
theorem threshold_unique {first second rest rest' : List Char}
    (printed : Printed first) (plain : 'e' ∉ first) (printed' : Printed second)
    (plain' : 'e' ∉ second) (same : first ++ '-' :: rest = second ++ '-' :: rest') :
    first = second ∧ rest = rest' := by
  obtain ⟨sign, body, rfl, signed, some, noHyphen⟩ := printed.body plain
  obtain ⟨sign', body', rfl, signed', some', noHyphen'⟩ := printed'.body plain'
  -- an unsigned text does not begin with a hyphen
  have differ {text more : List Char} (nonempty : text ≠ []) (absent : '-' ∉ text)
      {other : List Char} : text ++ more ≠ '-' :: other := by
    intro equal
    cases text with
    | nil => exact nonempty rfl
    | cons head text =>
        cases equal
        exact absent List.mem_cons_self
  rcases signed with rfl | rfl
  · rcases signed' with rfl | rfl
    · exact cutFirst_unique noHyphen noHyphen' same
    · exact absurd same (differ some noHyphen)
  · rcases signed' with rfl | rfl
    · exact absurd same.symm (differ some' noHyphen')
    · obtain ⟨sameBody, sameRest⟩ := cutFirst_unique noHyphen noHyphen' (List.cons.inj same).2
      rw [sameBody]
      exact ⟨rfl, sameRest⟩

theorem newDenseRetriever_eq_ok {threshold : List Char} {embedderVersion : String}
    {version : String} {dimensions : Int}
    (built : newDenseRetriever decimals threshold embedderVersion = .ok (version, dimensions)) :
    version = retrievalVersion threshold embedderVersion := by
  simp only [newDenseRetriever, bind_eq_ok] at built
  obtain ⟨_, _, built⟩ := built
  split at built
  · cases built
    rfl
  · cases built

end Versions

/-- The digest, spelled out. -/
theorem digest_eq {ν : Type} (numeral : ν → List Char) (settings : EmbeddingSettings ν) :
    settings.digest numeral =
      (Sha256.hexdigest (Utf8Stream.encode (dumpsAscii numeral (.obj
        [(JString.ofString "query_template", .str (JString.ofString settings.queryTemplate)),
          (JString.ofString "document_template", .str (JString.ofString settings.documentTemplate)),
          (JString.ofString "input_type", .str (JString.ofString settings.inputType)),
          (JString.ofString "provider_routing",
            (settings.providerRouting.map Tree.obj).getD .null)])))).take 8 := by
  rw [EmbeddingSettings.digest, EmbeddingSettings.canonical]
  cases settings.providerRouting <;> rfl

/-- The version of an embedder: every model name within its bound has one, both
decoders read the dimension from it, it tells settings apart up to eight digits of the
hash of their templates, input type and routing, and a retrieval's version tells
thresholds and embedders apart. -/
theorem embedding_version_encoding {ν : Type} (numeral : ν → List Char) (decimals : Decimals) :
    (∀ settings : EmbeddingSettings ν, settings.model.length ≤ 185 →
      1 ≤ settings.dimensions → settings.dimensions ≤ 16000 →
        ∃ version, deriveEmbeddingVersion numeral settings = .ok version ∧ version.length ≤ 200 ∧
          declaredDimensions decimals version = some (settings.dimensions : Int) ∧
          (fromEnd (version.toList.splitOn '|') 2).bind decimals.int =
            some (settings.dimensions : Int)) ∧
    (∀ (first second : EmbeddingSettings ν) (version : String),
      deriveEmbeddingVersion numeral first = .ok version →
      deriveEmbeddingVersion numeral second = .ok version →
        first.model = second.model ∧ first.dimensions = second.dimensions ∧
          (Sha256.hexdigest (Utf8Stream.encode (dumpsAscii numeral (.obj
            [(JString.ofString "query_template", .str (JString.ofString first.queryTemplate)),
              (JString.ofString "document_template",
                .str (JString.ofString first.documentTemplate)),
              (JString.ofString "input_type", .str (JString.ofString first.inputType)),
              (JString.ofString "provider_routing",
                (first.providerRouting.map Tree.obj).getD .null)])))).take 8 =
          (Sha256.hexdigest (Utf8Stream.encode (dumpsAscii numeral (.obj
            [(JString.ofString "query_template", .str (JString.ofString second.queryTemplate)),
              (JString.ofString "document_template",
                .str (JString.ofString second.documentTemplate)),
              (JString.ofString "input_type", .str (JString.ofString second.inputType)),
              (JString.ofString "provider_routing",
                (second.providerRouting.map Tree.obj).getD .null)])))).take 8) ∧
    (∀ (threshold threshold' : List Char) (embedderVersion embedderVersion' version : String)
      (dimensions dimensions' : Int),
      Printed threshold → 'e' ∉ threshold → Printed threshold' → 'e' ∉ threshold' →
      newDenseRetriever decimals threshold embedderVersion = .ok (version, dimensions) →
      newDenseRetriever decimals threshold' embedderVersion' = .ok (version, dimensions') →
        threshold = threshold' ∧ embedderVersion = embedderVersion') := by
  refine ⟨?_, ?_, ?_⟩
  · intro settings short _ small
    have bound : maxEmbedModelLength = 185 := by decide +kernel
    have fits : (settings.version numeral).length ≤ maxEmbeddingVersionLength :=
      length_version (bound ▸ short) small
    have isVersion : (String.ofList (settings.version numeral)).toList = settings.version numeral :=
      String.toList_ofList
    refine ⟨_, derive_eq_ok.mpr ⟨fits, isVersion⟩, ?_, declaredDimensions_version isVersion small,
      fromEnd_version isVersion small⟩
    rw [String.length_ofList]
    exact fits
  · intro first second version firstOk secondOk
    have unique := version_unique ((derive_eq_ok.mp firstOk).2.symm.trans (derive_eq_ok.mp secondOk).2)
    rw [digest_eq, digest_eq] at unique
    exact unique
  · intro threshold threshold' embedderVersion embedderVersion' version dimensions dimensions'
      printed plain printed' plain' built built'
    have same := (newDenseRetriever_eq_ok built).symm.trans (newDenseRetriever_eq_ok built')
    have sameText := String.ofList_injective same
    rw [List.append_assoc, List.append_assoc, List.append_cancel_left_eq] at sameText
    obtain ⟨sameThreshold, sameVersion⟩ := threshold_unique printed plain printed' plain' sameText
    exact ⟨sameThreshold, String.toList_inj.mp sameVersion⟩

/-- The decimal digits of ASCII alone. -/
def asciiDecimals : Decimals where
  value := fun char => if char.isDigit = true then some (char.toNat - '0'.toNat) else none
  ascii := fun _ digit => if_pos digit

/-- A model whose name holds the separator. -/
def sampleEmbedding : EmbeddingSettings Nat where
  model := "vendor|m"
  dimensions := 4096

theorem embedding_version_encoding_of_sample :
    (∃ version, deriveEmbeddingVersion (Nat.toDigits 10) sampleEmbedding = .ok version ∧
      version.length ≤ 200 ∧ declaredDimensions asciiDecimals version = some 4096 ∧
        (∀ other : EmbeddingSettings Nat,
          deriveEmbeddingVersion (Nat.toDigits 10) other = .ok version → other.model = "vendor|m")) ∧
    ∀ embedderVersion dimensions,
      newDenseRetriever asciiDecimals "0.5".toList embedderVersion =
          .ok ("dense-cosine-top5-d0.5-vendor|m|8|0123abcd", dimensions) →
        embedderVersion = "vendor|m|8|0123abcd" := by
  obtain ⟨derived, unique, retrieval⟩ :=
    embedding_version_encoding (Nat.toDigits 10) asciiDecimals
  obtain ⟨version, versionOk, short, worker, _⟩ :=
    derived sampleEmbedding (by decide) (by decide) (by decide)
  have printed : Printed "0.5".toList :=
    .point [] ['0'] ['5'] (.inl rfl) (by decide +kernel) (by decide +kernel) (by decide +kernel)
  have built : newDenseRetriever asciiDecimals "0.5".toList "vendor|m|8|0123abcd" =
      .ok ("dense-cosine-top5-d0.5-vendor|m|8|0123abcd", 8) := by
    decide +kernel
  refine ⟨⟨version, versionOk, short, worker, fun other otherOk => ?_⟩, ?_⟩
  · exact (unique other sampleEmbedding version otherOk versionOk).1
  · intro embedderVersion dimensions built'
    exact (retrieval _ _ _ _ _ _ _ printed (by decide) printed (by decide) built' built).2

end Docta
