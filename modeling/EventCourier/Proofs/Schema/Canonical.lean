import EventCourier.Proofs.Json.RoundTrip
import EventCourier.Proofs.Schema.Declaring

/-!
# Canonical texts

A schema's document keeps all that the schema says.  Two of its members may be left out, and each
of them only when there is nothing to put there, so no two layouts have the same document.  A
document is read back from its text, and so the canonical text tells a schema from every other.
Declarations that have the same canonical text are the same up to order, and no others are.
-/

namespace EventCourier

theorem Kind.name_injective : Function.Injective Kind.name := by
  intro kind other hname
  cases kind <;> cases other <;> first | rfl | simp [name] at hname

namespace Json

theorem ofMembers_injective : Function.Injective ofMembers := by
  intro members others hmembers
  have hkeyed : Function.Injective fun member : String × Json => (some member.1, member.2) := by
    rintro ⟨key, value⟩ ⟨key', value'⟩ h
    simpa using h
  exact List.map_injective_iff.mpr hkeyed (object.inj hmembers)

theorem Plain.ofMembers
    {members : List (String × Json)} (hvalues : ∀ member ∈ members, member.2.Plain) :
    (ofMembers members).Plain := by
  refine .object (fun member hmember => ?_) fun member hmember => ?_
  · obtain ⟨⟨key, value⟩, _, rfl⟩ := List.mem_map.mp hmember
    exact ⟨key, rfl⟩
  · obtain ⟨⟨key, value⟩, hmem, rfl⟩ := List.mem_map.mp hmember
    exact hvalues (key, value) hmem

end Json

namespace Schema

/-! ## The documents of layouts -/

theorem fieldDocuments_eq_map (fields : List Field) :
    fieldDocuments fields = fields.map fieldDocument := by
  induction fields with
  | nil => rw [fieldDocuments, List.map_nil]
  | cons field rest ih => rw [fieldDocuments, ih, List.map_cons]

theorem fieldDocument_eq (field : Field) :
    fieldDocument field = .ofMembers
      (("id", .natural field.id.toNat) :: ("name", .text field.name) ::
        ("kind", .text field.kind.name) :: ("required", .bool field.required) ::
        ("since", .natural field.since.toNat) ::
        (field.layout.map fun nested => ("record", layoutDocument nested)).toList) := by
  rcases field with ⟨id, name, kind, required, since, layout⟩
  cases layout <;> rw [fieldDocument] <;> rfl

theorem plain_fieldDocument
    {field : Field}
    (hnested : ∀ nested, field.layout = some nested → (layoutDocument nested).Plain) :
    (fieldDocument field).Plain := by
  rw [fieldDocument_eq]
  apply Json.Plain.ofMembers
  simp only [List.forall_mem_cons]
  refine ⟨.natural _, .text _, .text _, .bool _, .natural _, ?_⟩
  simpa using hnested

theorem plain_layoutDocument (layout : Layout) : (layoutDocument layout).Plain := by
  induction layout using Layout.induction with
  | hstep layout ih =>
      rcases layout with ⟨fields, retired⟩
      rw [layoutDocument, fieldDocuments_eq_map]
      apply Json.Plain.ofMembers
      have hfields : (Json.array (fields.map fieldDocument)).Plain := by
        refine .array ?_
        rw [List.forall_mem_map]
        exact fun field hfield => plain_fieldDocument (ih field hfield)
      have hretired : (Json.array (retired.map fun id => .natural id.toNat)).Plain := by
        refine .array ?_
        rw [List.forall_mem_map]
        exact fun id _ => .natural _
      rw [List.forall_mem_cons]
      refine ⟨hfields, ?_⟩
      split
      · exact nofun
      · exact List.forall_mem_singleton.mpr hretired

theorem eq_of_fieldDocument_eq
    {field other : Field}
    (hnested : ∀ nested, field.layout = some nested → ∀ nested',
      layoutDocument nested = layoutDocument nested' → nested = nested')
    (hdocument : fieldDocument field = fieldDocument other) : field = other := by
  rw [fieldDocument_eq, fieldDocument_eq] at hdocument
  have hmembers := Json.ofMembers_injective hdocument
  rcases field with ⟨id, name, kind, required, since, layout⟩
  rcases other with ⟨id', name', kind', required', since', layout'⟩
  simp only [List.cons.injEq, Prod.mk.injEq, true_and, Json.natural.injEq, Json.bool.injEq,
    Json.text, Json.string.injEq, Option.some.injEq, UInt32.toNat_inj] at hmembers
  obtain ⟨rfl, rfl, hkind, rfl, rfl, hlayout⟩ := hmembers
  obtain rfl := Kind.name_injective hkind
  cases layout with
  | none =>
      cases layout' with
      | none => rfl
      | some nested' => cases hlayout
  | some nested =>
      cases layout' with
      | none => cases hlayout
      | some nested' =>
          simp only [Option.map_some, Option.toList_some, List.cons.injEq, Prod.mk.injEq, true_and,
            and_true] at hlayout
          rw [hnested nested rfl nested' hlayout]

theorem eq_of_fieldDocuments_eq
    {fields others : List Field}
    (hfield : ∀ field ∈ fields, ∀ other, fieldDocument field = fieldDocument other → field = other)
    (hdocuments : fields.map fieldDocument = others.map fieldDocument) : fields = others := by
  induction fields generalizing others with
  | nil => exact (List.map_eq_nil_iff.mp hdocuments.symm).symm
  | cons field rest ih =>
      obtain ⟨hhead, htail⟩ := List.forall_mem_cons.mp hfield
      obtain ⟨other, later, rfl, hother, hlater⟩ := List.map_eq_cons_iff.mp hdocuments.symm
      rw [hhead other hother.symm, ih htail hlater.symm]

theorem layoutDocument_injective : Function.Injective layoutDocument := by
  intro layout
  induction layout using Layout.induction with
  | hstep layout ih =>
      intro other hdocument
      rcases layout with ⟨fields, retired⟩
      rcases other with ⟨fields', retired'⟩
      rw [layoutDocument, layoutDocument, fieldDocuments_eq_map, fieldDocuments_eq_map] at hdocument
      have hmembers := Json.ofMembers_injective hdocument
      simp only [List.cons.injEq, Prod.mk.injEq, true_and, Json.array.injEq] at hmembers
      obtain ⟨hfields, hretired⟩ := hmembers
      obtain rfl : fields = fields' :=
        eq_of_fieldDocuments_eq (fun field hfield _ => eq_of_fieldDocument_eq (ih field hfield))
          hfields
      -- The member for retired ids is missing on both sides or on neither.
      cases retired with
      | nil =>
          cases retired' with
          | nil => rfl
          | cons id' rest' => cases hretired
      | cons id rest =>
          cases retired' with
          | nil => cases hretired
          | cons id' rest' =>
              simp only [List.isEmpty_cons, Bool.false_eq_true, if_false, List.cons.injEq,
                Prod.mk.injEq, Json.array.injEq, true_and, and_true] at hretired
              have hnatural : Function.Injective fun id : UInt32 => Json.natural id.toNat :=
                fun _ _ h => UInt32.toNat_inj.mp (Json.natural.inj h)
              rw [List.map_injective_iff.mpr hnatural hretired]

/-! ## The texts of schemas -/

theorem eq_iff {schema other : Schema} :
    schema = other ↔ schema.eventType = other.eventType ∧ schema.version = other.version ∧
      schema.layout = other.layout := by
  cases schema
  cases other
  simp

theorem plain_members (schema : Schema) : (Json.ofMembers schema.members).Plain := by
  apply Json.Plain.ofMembers
  simp only [members, List.forall_mem_cons]
  exact ⟨.text _, .natural _, plain_layoutDocument _, nofun⟩

theorem canonical_injective : Function.Injective canonical := by
  intro schema other hcanonical
  have hmembers := Json.ofMembers_injective
    (Json.compact_injective schema.plain_members other.plain_members hcanonical)
  simp only [members, List.cons.injEq, Prod.mk.injEq, true_and, and_true, Json.natural.injEq,
    Json.text, Json.string.injEq, Option.some.injEq, UInt32.toNat_inj] at hmembers
  obtain ⟨heventType, hversion, hlayout⟩ := hmembers
  exact eq_iff.mpr ⟨heventType, hversion, layoutDocument_injective hlayout⟩

section Declarations

variable {eventType eventType' : String} {version version' : UInt32} {declared declared' : Layout}
  {schema schema' : Schema}

theorem eq_iff_of_declare
    (hdeclared : declare eventType version declared = .ok schema)
    (hdeclared' : declare eventType' version' declared' = .ok schema') :
    schema = schema' ↔
      eventType = eventType' ∧ version = version' ∧ declared.SameUpToOrder declared' := by
  have hdistinct : declared.Distinct :=
    (throughout_keepsRules_of_declare hdeclared).imp fun _ hkeeps => hkeeps.1
  obtain ⟨rfl, rfl, hlayout⟩ := declare_eq_ok_iff.mp hdeclared
  obtain ⟨rfl, rfl, hlayout'⟩ := declare_eq_ok_iff.mp hdeclared'
  rw [eq_iff, hlayout, hlayout', Layout.arranged_eq_iff_sameUpToOrder hdistinct]

/-- Two declarations have the same canonical text exactly when they are the same up to order, and
then the same fingerprint and the same descriptor.  The fingerprints of any others are the same only
where the digests of two different texts are the same in their first eight octets. -/
theorem canonical_eq_iff_sameUpToOrder
    (hdeclared : declare eventType version declared = .ok schema)
    (hdeclared' : declare eventType' version' declared' = .ok schema') :
    (schema.canonical = schema'.canonical ↔
        eventType = eventType' ∧ version = version' ∧ declared.SameUpToOrder declared') ∧
      (eventType = eventType' ∧ version = version' ∧ declared.SameUpToOrder declared' →
        schema.fingerprint = schema'.fingerprint ∧ schema.descriptor = schema'.descriptor) ∧
      (¬ (eventType = eventType' ∧ version = version' ∧ declared.SameUpToOrder declared') →
        schema.fingerprint = schema'.fingerprint →
          Text.toUtf8 schema.canonical ≠ Text.toUtf8 schema'.canonical ∧
            (Sha256.digest (Text.toUtf8 schema.canonical)).take 8 =
              (Sha256.digest (Text.toUtf8 schema'.canonical)).take 8) := by
  have hsame := eq_iff_of_declare hdeclared hdeclared'
  rw [← hsame]
  refine ⟨canonical_injective.eq_iff, ?_, fun hdiffer hfingerprint => ⟨?_, hfingerprint⟩⟩
  · rintro rfl
    exact ⟨rfl, rfl⟩
  · intro htexts
    exact hdiffer (canonical_injective (Text.toUtf8_injective htexts))

end Declarations

/-! ## One declaration in two orders -/

def placeLayout : Layout :=
  ⟨[{ id := 1, name := "street", kind := .text },
    { id := 2, name := "city", kind := .text }], [3, 4]⟩

def accountLayout : Layout :=
  ⟨[{ id := 1, name := "name", kind := .text },
    { id := 5, name := "place", kind := .record, layout := some placeLayout }], []⟩

/-- Accounts once more, with everything listed last first. -/
def accountLayoutBackwards : Layout :=
  ⟨[{ id := 5, name := "place", kind := .record, layout := some
        ⟨[{ id := 2, name := "city", kind := .text },
          { id := 1, name := "street", kind := .text }], [4, 3]⟩ },
    { id := 1, name := "name", kind := .text }], []⟩

def accounts : Schema :=
  ⟨"Account", 1, accountLayout, ⟨accountLayout, by cbv⟩, rfl⟩

def secondAccounts : Schema :=
  ⟨"Account", 2, accountLayout, ⟨accountLayout, by cbv⟩, rfl⟩

/-- The order makes no difference to the canonical text, and the version does. -/
theorem canonical_accounts :
    declare "Account" 1 accountLayout = .ok accounts ∧
      declare "Account" 1 accountLayoutBackwards = .ok accounts ∧
      declare "Account" 2 accountLayoutBackwards = .ok secondAccounts ∧
      accountLayout.SameUpToOrder accountLayoutBackwards ∧
      accounts.canonical ≠ secondAccounts.canonical := by
  have hlisted : declare "Account" 1 accountLayout = .ok accounts :=
    declare_eq_ok_iff.mpr ⟨rfl, rfl, by cbv⟩
  have hbackwards : declare "Account" 1 accountLayoutBackwards = .ok accounts :=
    declare_eq_ok_iff.mpr ⟨rfl, rfl, by cbv⟩
  have hsecond : declare "Account" 2 accountLayoutBackwards = .ok secondAccounts :=
    declare_eq_ok_iff.mpr ⟨rfl, rfl, by cbv⟩
  obtain ⟨_, _, hsame⟩ := (canonical_eq_iff_sameUpToOrder hlisted hbackwards).1.mp rfl
  refine ⟨hlisted, hbackwards, hsecond, hsame, fun hcanonical => ?_⟩
  have hversion := ((canonical_eq_iff_sameUpToOrder hlisted hsecond).1.mp hcanonical).2.1
  exact absurd hversion (by decide)

end Schema
end EventCourier
