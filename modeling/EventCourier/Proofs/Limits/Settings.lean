import EventCourier.Limits.Settings
import EventCourier.Proofs.Json.Settings
import EventCourier.Proofs.Result
import EventCourier.Proofs.Text.Numeral

/-!
# One set of limits from variables and documents

The same numbers make the same limits, whether they stand in variables or in a document, and are
refused alike.  A variable may be written in more ways than a document; one that is no number is
told before any limit of zero.
-/

namespace EventCourier
namespace Limits

/-- The limits that are set. -/
structure Given where
  maxFieldBytes : Option UInt64 := none
  maxPayloadBytes : Option UInt64 := none
  maxDepth : Option UInt64 := none

def Given.limits (given : Given) : Limits :=
  let defaults : Limits := {}
  { maxFieldBytes := given.maxFieldBytes.getD defaults.maxFieldBytes
    maxPayloadBytes := given.maxPayloadBytes.getD defaults.maxPayloadBytes
    maxDepth := given.maxDepth.getD defaults.maxDepth }

/-- Texts for numbers that are set, and for no others. -/
def Denoted : Option String → Option UInt64 → Prop :=
  Option.Rel fun raw n => Text.Denotes raw n.toNat

structure Given.InVariables (given : Given) (env : Variables) : Prop where
  maxFieldBytes : Denoted (env "EVENTWIRE_MAX_FIELD_BYTES") given.maxFieldBytes
  maxPayloadBytes : Denoted (env "EVENTWIRE_MAX_PAYLOAD_BYTES") given.maxPayloadBytes
  maxDepth : Denoted (env "EVENTWIRE_MAX_DEPTH") given.maxDepth

def Given.settings (given : Given) : List (String × Option Json) :=
  [("max_field_bytes", given.maxFieldBytes.map fun n => .natural n.toNat),
    ("max_payload_bytes", given.maxPayloadBytes.map fun n => .natural n.toNat),
    ("max_depth", given.maxDepth.map fun n => .natural n.toNat)]

def Given.InDocument (given : Given) (text : String) : Prop :=
  ∃ doc, Json.read? text = some doc ∧ doc.Sets given.settings

/-- The variables in the order in which they are read. -/
def numberKeys : List String :=
  ["EVENTWIRE_MAX_FIELD_BYTES", "EVENTWIRE_MAX_PAYLOAD_BYTES", "EVENTWIRE_MAX_DEPTH"]

/-- The variable is not set, or is a number of 64 bits. -/
def Readable (env : Variables) (key : String) : Prop :=
  ∀ raw ∈ env key, ∃ n < UInt64.size, Text.Denotes raw n

theorem Given.nonZero_limits (given : Given) (fieldKey payloadKey : String) :
    given.limits.nonZero fieldKey payloadKey =
      if given.maxFieldBytes = some 0 then .error ⟨fieldKey, .zero⟩
      else if given.maxPayloadBytes = some 0 then .error ⟨payloadKey, .zero⟩
      else .ok given.limits := by
  -- No default is zero, so a limit of zero has been set.
  have hzero : ∀ (value : Option UInt64) (default : UInt64), default ≠ 0 →
      (value.getD default = 0 ↔ value = some 0) := by
    intro value default hdefault
    cases value <;> simp [hdefault]
  have hfield := hzero given.maxFieldBytes 65536 (by decide)
  have hpayload := hzero given.maxPayloadBytes 1048576 (by decide)
  simp only [nonZero, Given.limits, hfield, hpayload]

/-! ## Variables -/

/-- The error for a variable that is no number. -/
def unread? (env : Variables) (key : String) : Option ConfigError :=
  (env key).bind fun raw =>
    (error? (Text.readNumeral (Text.trim raw))).map fun fault => ⟨key, .notNatural fault⟩

theorem error?_number (env : Variables) (key : String) (default : UInt64) :
    error? (number env key default) = unread? env key := by
  unfold number unread?
  cases env key with
  | none => rfl
  | some raw =>
      dsimp only [Option.bind_some]
      cases Text.readNumeral (Text.trim raw) <;> rfl

theorem number_of_denoted
    {env : Variables} {key : String} {value : Option UInt64} (hdenoted : Denoted (env key) value)
    (default : UInt64) : number env key default = .ok (value.getD default) := by
  unfold number
  generalize env key = raw? at hdenoted
  cases hdenoted with
  | none => rfl
  | some hraw =>
      dsimp only
      rw [Text.readNumeral_trim_eq_ok_iff.mpr hraw]
      rfl

theorem Given.InVariables.ofVariables_eq
    {given : Given} {env : Variables} (henv : given.InVariables env) :
    ofVariables env =
      given.limits.nonZero "EVENTWIRE_MAX_FIELD_BYTES" "EVENTWIRE_MAX_PAYLOAD_BYTES" := by
  unfold ofVariables
  dsimp only
  rw [number_of_denoted henv.maxFieldBytes, number_of_denoted henv.maxPayloadBytes,
    number_of_denoted henv.maxDepth]
  rfl

theorem readable_iff {env : Variables} {key : String} :
    Readable env key ↔ unread? env key = none := by
  unfold unread? Readable
  cases env key with
  | none => simp
  | some raw =>
      simp only [Option.mem_def, Option.some.injEq, forall_eq', Option.bind_some,
        Option.map_eq_none_iff]
      cases hread : Text.readNumeral (Text.trim raw) with
      | error fault =>
          simp only [error?, reduceCtorEq, iff_false]
          intro h
          rcases h with ⟨n, hn, hdenotes⟩
          rw [← UInt64.toNat_ofNat_of_lt' hn, ← Text.readNumeral_trim_eq_ok_iff, hread] at hdenotes
          cases hdenotes
      | ok n =>
          simp only [error?, iff_true]
          exact ⟨n.toNat, n.toNat_lt, Text.readNumeral_trim_eq_ok_iff.mp hread⟩

theorem eq_of_unread? {env : Variables} {key : String} {error : ConfigError}
    (hunread : unread? env key = some error) : ∃ fault, error = ⟨key, .notNatural fault⟩ := by
  unfold unread? at hunread
  rw [Option.bind_eq_some_iff] at hunread
  rcases hunread with ⟨raw, _, hraw⟩
  rw [Option.map_eq_some_iff] at hraw
  rcases hraw with ⟨fault, _, rfl⟩
  exact ⟨fault, rfl⟩

/-- All variables are read before a limit of zero is refused. -/
theorem ofVariables_cases (env : Variables) :
    (∃ error, numberKeys.findSome? (unread? env) = some error ∧ ofVariables env = .error error) ∨
      numberKeys.findSome? (unread? env) = none ∧ ∃ limits : Limits, ofVariables env =
        limits.nonZero "EVENTWIRE_MAX_FIELD_BYTES" "EVENTWIRE_MAX_PAYLOAD_BYTES" := by
  unfold ofVariables numberKeys
  simp only [List.findSome?_cons, List.findSome?_nil]
  rw [← error?_number env "EVENTWIRE_MAX_FIELD_BYTES" 65536,
    ← error?_number env "EVENTWIRE_MAX_PAYLOAD_BYTES" 1048576,
    ← error?_number env "EVENTWIRE_MAX_DEPTH" 8]
  cases number env "EVENTWIRE_MAX_FIELD_BYTES" 65536 with
  | error error => exact .inl ⟨error, rfl, rfl⟩
  | ok maxFieldBytes =>
      cases number env "EVENTWIRE_MAX_PAYLOAD_BYTES" 1048576 with
      | error error => exact .inl ⟨error, rfl, rfl⟩
      | ok maxPayloadBytes =>
          cases number env "EVENTWIRE_MAX_DEPTH" 8 with
          | error error => exact .inl ⟨error, rfl, rfl⟩
          | ok maxDepth => exact .inr ⟨rfl, ⟨maxFieldBytes, maxPayloadBytes, maxDepth⟩, rfl⟩

theorem nonZero_ne_notNatural
    {limits : Limits} {fieldKey payloadKey key : String} {fault : Text.NumeralFault} :
    limits.nonZero fieldKey payloadKey ≠ .error ⟨key, .notNatural fault⟩ := by
  unfold nonZero
  split
  · simp
  · split <;> simp

/-- The variable named is the first that is no number. -/
theorem exists_notNatural_iff {env : Variables} {key : String} :
    (∃ fault, ofVariables env = .error ⟨key, .notNatural fault⟩) ↔
      ∃ before after, numberKeys = before ++ key :: after ∧
        (∀ earlier ∈ before, Readable env earlier) ∧ ¬ Readable env key := by
  simp only [readable_iff]
  constructor
  · intro h
    rcases h with ⟨fault, hrefused⟩
    rcases ofVariables_cases env with ⟨error, hfirst, herror⟩ | ⟨_, limits, hnumbers⟩
    · rcases List.findSome?_eq_some_iff.mp hfirst with
        ⟨before, named, after, hkeys, hnamed, hbefore⟩
      rcases eq_of_unread? hnamed with ⟨other, rfl⟩
      rw [hrefused] at herror
      cases herror
      exact ⟨before, after, hkeys, hbefore, by simp [hnamed]⟩
    · rw [hnumbers] at hrefused
      exact absurd hrefused nonZero_ne_notNatural
  · intro h
    rcases h with ⟨before, after, hkeys, hbefore, hunread⟩
    rcases Option.ne_none_iff_exists'.mp hunread with ⟨error, herror⟩
    have hfirst : numberKeys.findSome? (unread? env) = some error :=
      List.findSome?_eq_some_iff.mpr ⟨before, key, after, hkeys, herror, hbefore⟩
    rcases eq_of_unread? herror with ⟨fault, rfl⟩
    rcases ofVariables_cases env with ⟨error, hsome, hrefused⟩ | ⟨hnone, _⟩
    · rw [hfirst] at hsome
      cases hsome
      exact ⟨fault, hrefused⟩
    · rw [hfirst] at hnone
      cases hnone

/-! ## Documents -/

theorem member?_natural (default : UInt64) (value : Option UInt64) :
    member? default (value.map fun n => .natural n.toNat) = some (value.getD default) := by
  cases value with
  | none => rfl
  | some n => simp [member?, Json.natural?, n.toNat_lt]

theorem Given.InDocument.ofText_eq
    {given : Given} {text : String} (htext : given.InDocument text) :
    ofText text =
      (given.limits.nonZero "max_field_bytes" "max_payload_bytes").mapError .setting := by
  rcases htext with ⟨doc, hread, hsets⟩
  have hsettings := Json.settings?_of_sets hsets
  have hnumbers : numbersOfJson? doc = some given.limits := by
    unfold numbersOfJson?
    simp only [Given.settings, List.map_cons, List.map_nil] at hsettings
    rw [hsettings]
    dsimp only [Option.bind_eq_bind, Option.bind_some]
    rw [member?_natural, member?_natural, member?_natural]
    rfl
  rw [ofText, settingsOfText_of_read? hread, ofJson, hnumbers]
  dsimp only
  cases given.limits.nonZero "max_field_bytes" "max_payload_bytes" <;> rfl

/-! ## One set of limits in both -/

theorem exists_denoted
    {env : Variables} {key : String} (hreadable : Readable env key) :
    ∃ value, Denoted (env key) value := by
  unfold Readable at hreadable
  cases hraw : env key with
  | none => exact ⟨none, .none⟩
  | some raw =>
      rcases hreadable raw hraw with ⟨n, hn, hdenotes⟩
      rw [← UInt64.toNat_ofNat_of_lt' hn] at hdenotes
      exact ⟨some (.ofNat n), .some hdenotes⟩

theorem exists_given
    {env : Variables} (hreadable : ∀ key ∈ numberKeys, Readable env key) :
    ∃ given : Given, given.InVariables env := by
  simp only [numberKeys, List.forall_mem_cons] at hreadable
  rcases exists_denoted hreadable.1 with ⟨maxFieldBytes, hfield⟩
  rcases exists_denoted hreadable.2.1 with ⟨maxPayloadBytes, hpayload⟩
  rcases exists_denoted hreadable.2.2.1 with ⟨maxDepth, hdepth⟩
  exact ⟨⟨maxFieldBytes, maxPayloadBytes, maxDepth⟩, hfield, hpayload, hdepth⟩

/-- The numbers as variables, in decimal digits and nothing else. -/
def Given.toVariables (given : Given) : Variables
  | "EVENTWIRE_MAX_FIELD_BYTES" => given.maxFieldBytes.map fun n => n.toNat.repr
  | "EVENTWIRE_MAX_PAYLOAD_BYTES" => given.maxPayloadBytes.map fun n => n.toNat.repr
  | "EVENTWIRE_MAX_DEPTH" => given.maxDepth.map fun n => n.toNat.repr
  | _ => none

theorem denoted_repr (value : Option UInt64) :
    Denoted (value.map fun n => n.toNat.repr) value := by
  cases value with
  | none => exact .none
  | some n =>
      have halone : Text.StandsAlone (List.replicate 0 '0' ++ Nat.toDigits 10 n.toNat)
          n.toNat.repr :=
        ⟨[], [], List.forall_mem_nil _, List.forall_mem_nil _, by simp [Nat.repr]⟩
      exact .some ⟨_, Text.spells_toDigits 0 n.toNat, .inl halone⟩

theorem Given.inVariables_toVariables (given : Given) : given.InVariables given.toVariables :=
  ⟨denoted_repr _, denoted_repr _, denoted_repr _⟩

theorem Given.exists_document (given : Given) : ∃ text, given.InDocument text := by
  apply Json.exists_text_of_settings
  · simp [Given.settings]
  · have hnatural : ∀ value : Option UInt64,
        ∀ doc ∈ value.map fun n => Json.natural n.toNat, doc.Plain :=
      fun _ => Json.plain_of_mem_map fun n => .natural n.toNat
    simp only [Given.settings, List.forall_mem_cons]
    exact ⟨hnatural _, hnatural _, hnatural _, List.forall_mem_nil _⟩

/-- The same numbers in variables and in a document make the same limits; both are refused where a
byte limit is zero, and then the limit on fields is named first.  Any numbers can stand in both, and
variables that can be read are numbers.  Where one cannot be read, the first of them is named,
whatever else is wrong. -/
theorem variables_documents_agree :
    (∀ (given : Given) env text, given.InVariables env → given.InDocument text →
        (given.maxFieldBytes = some 0 →
          ofVariables env = .error ⟨"EVENTWIRE_MAX_FIELD_BYTES", .zero⟩ ∧
            ofText text = .error (.setting ⟨"max_field_bytes", .zero⟩)) ∧
        (given.maxFieldBytes ≠ some 0 → given.maxPayloadBytes = some 0 →
          ofVariables env = .error ⟨"EVENTWIRE_MAX_PAYLOAD_BYTES", .zero⟩ ∧
            ofText text = .error (.setting ⟨"max_payload_bytes", .zero⟩)) ∧
        (given.maxFieldBytes ≠ some 0 → given.maxPayloadBytes ≠ some 0 →
          ofVariables env = .ok given.limits ∧ ofText text = .ok given.limits)) ∧
      (∀ given : Given, ∃ env text, given.InVariables env ∧ given.InDocument text) ∧
      (∀ env, (∀ key ∈ numberKeys, Readable env key) → ∃ given : Given, given.InVariables env) ∧
      ∀ env key, (∃ fault, ofVariables env = .error ⟨key, .notNatural fault⟩) ↔
        ∃ before after, numberKeys = before ++ key :: after ∧
          (∀ earlier ∈ before, Readable env earlier) ∧ ¬ Readable env key := by
  refine ⟨?_, ?_, ?_, ?_⟩
  · intro given env text henv htext
    rw [henv.ofVariables_eq, htext.ofText_eq, given.nonZero_limits, given.nonZero_limits]
    refine ⟨?_, ?_, ?_⟩
    · intro hfield
      rw [if_pos hfield, if_pos hfield]
      exact ⟨rfl, rfl⟩
    · intro hfield hpayload
      rw [if_neg hfield, if_neg hfield, if_pos hpayload, if_pos hpayload]
      exact ⟨rfl, rfl⟩
    · intro hfield hpayload
      rw [if_neg hfield, if_neg hfield, if_neg hpayload, if_neg hpayload]
      exact ⟨rfl, rfl⟩
  · intro given
    rcases given.exists_document with ⟨text, htext⟩
    exact ⟨_, text, given.inVariables_toVariables, htext⟩
  · intro env hreadable
    exact exists_given hreadable
  · intro env key
    exact exists_notNatural_iff

def sampleGiven : Given := { maxFieldBytes := some 1000, maxDepth := some 0 }

def sampleVariables : Variables
  | "EVENTWIRE_MAX_FIELD_BYTES" => some "\u3000+001000\t"
  | "EVENTWIRE_MAX_DEPTH" => some "0"
  | _ => none

def sampleText : String :=
  " \x7b\"max_depth\": 0, \"colour\": null, \"max_field_bytes\": 1000\x7d\n"

/-- A depth that is no number outranks a limit of zero before it. -/
def muddledVariables : Variables
  | "EVENTWIRE_MAX_FIELD_BYTES" => some "0"
  | "EVENTWIRE_MAX_DEPTH" => some "-1"
  | _ => none

theorem variables_documents_agree_sampleGiven :
    sampleGiven.InVariables sampleVariables ∧ sampleGiven.InDocument sampleText ∧
      ofVariables sampleVariables = .ok ⟨1000, 1048576, 0⟩ ∧
      ofText sampleText = .ok ⟨1000, 1048576, 0⟩ ∧
      ∃ fault, ofVariables muddledVariables =
        .error ⟨"EVENTWIRE_MAX_DEPTH", .notNatural fault⟩ := by
  have henv : sampleGiven.InVariables sampleVariables := by
    constructor
    case maxFieldBytes =>
      have halone : Text.StandsAlone ('+' :: (List.replicate 2 '0' ++ Nat.toDigits 10 1000))
          "\u3000+001000\t" :=
        ⟨['\u3000'], ['\t'], List.forall_mem_singleton.mpr rfl,
          List.forall_mem_singleton.mpr rfl, rfl⟩
      exact .some ⟨_, Text.spells_toDigits 2 1000, .inr halone⟩
    case maxPayloadBytes => exact .none
    case maxDepth =>
      have halone : Text.StandsAlone (List.replicate 0 '0' ++ Nat.toDigits 10 0) "0" :=
        ⟨[], [], List.forall_mem_nil _, List.forall_mem_nil _, rfl⟩
      exact .some ⟨_, Text.spells_toDigits 0 0, .inl halone⟩
  have htext : sampleGiven.InDocument sampleText := by
    refine ⟨.object [(some "max_depth", .natural 0), (some "colour", .null),
      (some "max_field_bytes", .natural 1000)], by cbv, _, rfl, by simp, ?_⟩
    simp [Given.settings, sampleGiven]
  have hloads := (variables_documents_agree.1 sampleGiven sampleVariables sampleText henv htext).2.2
    (by decide) (by decide)
  have hfield : ∀ key ∈ ["EVENTWIRE_MAX_FIELD_BYTES", "EVENTWIRE_MAX_PAYLOAD_BYTES"],
      Readable muddledVariables key := by
    intro key hkey
    simp only [readable_iff]
    revert key
    decide
  have hdepth : ¬ Readable muddledVariables "EVENTWIRE_MAX_DEPTH" := by
    rw [readable_iff]
    decide
  have hnamed := (variables_documents_agree.2.2.2 muddledVariables "EVENTWIRE_MAX_DEPTH").mpr
    ⟨_, [], rfl, hfield, hdepth⟩
  exact ⟨henv, htext, hloads.1, hloads.2, hnamed⟩

end Limits
end EventCourier
