import EventCourier.Payload.Encoder
import EventCourier.Proofs.Record.Fitting
import EventCourier.Proofs.Result

/-!
# The written form of records

What a record is written as depends on nothing but the record: not on the layout that it was
checked against, nor on limits.  Writing the fields of a record succeeds exactly when its layout
covers it and it fits the layout, and gives its written form.
-/

namespace EventCourier

mutual

def Value.piece : Value → Piece
  | .bool b => .byte (if b then 1 else 0)
  | .int n => .varint (Zigzag.encode n)
  | .text s => .block (Text.toUtf8 s)
  | .bytes content => .block content
  | .timestamp t => .word (Int64.ofInt t.millis)
  | .record r => .block r.written

def Entries.written : {low : Nat} → Entries low → Bytes
  | _, .nil => []
  | _, .cons id _ value rest =>
    Piece.encodeAll (Payload.fieldPieces id value.kind value.piece) ++ rest.written

/-- The octets of a record's fields. -/
def Record.written : Record → Bytes
  | ⟨held⟩ => held.written

end

theorem Payload.encodeAll_fieldPieces (id : UInt32) (kind : Kind) (value : Piece) :
    Piece.encodeAll (fieldPieces id kind value) =
      Varint.encode id.toNat ++ kind.tag :: value.encode := by
  simp [fieldPieces, Piece.encode]

namespace Record

def entryWritten (entry : UInt32 × Value) : Bytes :=
  Piece.encodeAll (Payload.fieldPieces entry.1 entry.2.kind entry.2.piece)

/-- The octets of some fields. -/
def entriesWritten (entries : List (UInt32 × Value)) : Bytes :=
  entries.flatMap entryWritten

end Record

theorem Entries.written_eq {low : Nat} (entries : Entries low) :
    entries.written = Record.entriesWritten entries.toList := by
  induction entries with
  | nil =>
      rw [written]
      rfl
  | cons id above value rest ih =>
      rw [written, ih]
      rfl

namespace Record

theorem written_eq (record : Record) : record.written = entriesWritten record.entries := by
  rcases record with ⟨held⟩
  rw [written]
  exact held.written_eq

theorem entryWritten_eq (id : UInt32) (value : Value) :
    entryWritten (id, value) = Varint.encode id.toNat ++ value.kind.tag :: value.piece.encode :=
  Payload.encodeAll_fieldPieces id value.kind value.piece

theorem entriesWritten_cons (id : UInt32) (value : Value) (rest : List (UInt32 × Value)) :
    entriesWritten ((id, value) :: rest) =
      Varint.encode id.toNat ++ value.kind.tag :: (value.piece.encode ++ entriesWritten rest) := by
  simp [entriesWritten, entryWritten_eq]

theorem entriesWritten_append (front back : List (UInt32 × Value)) :
    entriesWritten (front ++ back) = entriesWritten front ++ entriesWritten back :=
  List.flatMap_append

theorem entriesWritten_flatMap {α : Type} (entries : α → List (UInt32 × Value)) (xs : List α) :
    entriesWritten (xs.flatMap entries) = xs.flatMap fun x => entriesWritten (entries x) :=
  List.flatMap_assoc

/-! ## Entries by field -/

theorem filter_eq_nil_of_lt
    {id : UInt32} {entries : List (UInt32 × Value)} (hafter : ∀ entry ∈ entries, id < entry.1) :
    entries.filter (·.1 == id) = [] := by
  rw [List.filter_eq_nil_iff]
  intro entry hmem hsame
  have hlt := hafter entry hmem
  rw [beq_iff_eq.mp hsame] at hlt
  exact UInt32.lt_irrefl _ hlt

theorem filter_append_filter_lt
    {id : UInt32} {entries : List (UInt32 × Value)}
    (hascending : entries.Pairwise fun a b => a.1 < b.1) (hfrom : ∀ entry ∈ entries, id ≤ entry.1) :
    entries.filter (·.1 == id) ++ entries.filter (id < ·.1) = entries := by
  cases entries with
  | nil => rfl
  | cons entry rest =>
      obtain ⟨hbefore, _⟩ := List.pairwise_cons.mp hascending
      have hle := hfrom entry List.mem_cons_self
      have hafter : ∀ other ∈ rest, id < other.1 := fun other hother =>
        UInt32.lt_of_le_of_lt hle (hbefore other hother)
      have hrest : rest.filter (id < ·.1) = rest :=
        List.filter_eq_self.mpr fun other hother => decide_eq_true (hafter other hother)
      by_cases hsame : entry.1 = id
      · simp [hsame, filter_eq_nil_of_lt hafter, hrest]
      · have hlt : id < entry.1 := UInt32.lt_of_le_of_ne hle (Ne.symm hsame)
        simp [hsame, hlt, filter_eq_nil_of_lt hafter, hrest]

/-- The entries under the ids of fields, field by field, are all entries if there are no others. -/
theorem flatMap_filter_eq
    {fields : List Field} {entries : List (UInt32 × Value)}
    (hfields : fields.Pairwise fun a b => a.id < b.id)
    (hentries : entries.Pairwise fun a b => a.1 < b.1)
    (hdeclared : ∀ entry ∈ entries, ∃ field ∈ fields, field.id = entry.1) :
    (fields.flatMap fun field => entries.filter (·.1 == field.id)) = entries := by
  induction fields generalizing entries with
  | nil =>
      cases entries with
      | nil => rfl
      | cons entry rest => simpa using hdeclared entry List.mem_cons_self
  | cons field others ih =>
      obtain ⟨hfirst, hothers⟩ := List.pairwise_cons.mp hfields
      have hfrom : ∀ entry ∈ entries, field.id ≤ entry.1 := by
        intro entry hmem
        obtain ⟨known, hknown, hid⟩ := hdeclared entry hmem
        rcases List.mem_cons.mp hknown with rfl | hknown
        · exact UInt32.le_of_eq hid
        · exact UInt32.le_of_lt (hid ▸ hfirst known hknown)
      have hlater : (others.flatMap fun other => entries.filter (·.1 == other.id)) =
          others.flatMap fun other =>
            (entries.filter (field.id < ·.1)).filter (·.1 == other.id) := by
        rw [List.flatMap_def, List.flatMap_def]
        congr 1
        refine List.map_congr_left fun other hother => ?_
        rw [List.filter_filter]
        refine List.filter_congr fun entry _ => ?_
        by_cases hsame : entry.1 = other.id
        · simp [hsame, hfirst other hother]
        · simp [hsame]
      rw [List.flatMap_cons, hlater, ih hothers (hentries.filter _),
        filter_append_filter_lt hentries hfrom]
      intro entry hmem
      obtain ⟨hmem, hlt⟩ := List.mem_filter.mp hmem
      obtain ⟨known, hknown, hid⟩ := hdeclared entry hmem
      rcases List.mem_cons.mp hknown with rfl | hknown
      · exact absurd (hid ▸ of_decide_eq_true hlt) (UInt32.lt_irrefl _)
      · exact ⟨known, hknown, hid⟩

theorem filter_eq_toList_lookup
    {entries : List (UInt32 × Value)} (hascending : entries.Pairwise fun a b => a.1 < b.1)
    (id : UInt32) :
    entries.filter (·.1 == id) = ((entries.lookup id).map fun value => (id, value)).toList := by
  induction entries with
  | nil => rfl
  | cons entry rest ih =>
      rcases entry with ⟨other, held⟩
      obtain ⟨hbefore, hrest⟩ := List.pairwise_cons.mp hascending
      by_cases hsame : other = id
      · subst hsame
        simp [filter_eq_nil_of_lt hbefore]
      · have hbeq : (id == other) = false := beq_eq_false_iff_ne.mpr (Ne.symm hsame)
        rw [List.filter_cons_of_neg (by simpa using hsame), List.lookup_cons, hbeq]
        exact ih hrest

theorem filter_eq_toList_get? (record : Record) (id : UInt32) :
    record.entries.filter (·.1 == id) = ((record.get? id).map fun value => (id, value)).toList :=
  filter_eq_toList_lookup record.ascending id

end Record

namespace Payload

/-! ## Writing -/

theorem sized_eq_ok_iff
    {limits : Limits} {path : String} {octets : Bytes} {piece : Piece} :
    scalarPiece.sized limits path octets = .ok piece ↔
      octets.length ≤ limits.maxFieldBytes.toNat ∧ piece = .block octets := by
  unfold scalarPiece.sized
  split
  next hlong =>
    simp [Nat.not_le.mpr hlong]
  next hfits =>
    simp [Nat.not_lt.mp hfits, eq_comm]

theorem scalarPiece_eq_ok_iff
    {limits : Limits} {path : String} {value : Value} {piece : Piece}
    (hkind : value.kind ≠ .record) :
    scalarPiece limits path value = .ok piece ↔ value.Within limits ∧ piece = value.piece := by
  cases value with
  | bool b => simp [scalarPiece, Value.Within, Value.piece, eq_comm]
  | int n => simp [scalarPiece, Value.Within, Value.piece, eq_comm]
  | text s => simp [scalarPiece, sized_eq_ok_iff, Value.Within, Value.piece]
  | bytes content => simp [scalarPiece, sized_eq_ok_iff, Value.Within, Value.piece]
  | timestamp t =>
      cases hexact : t.exactMillis with
      | error reason => simp [scalarPiece, hexact, Value.Within]
      | ok millis =>
          have hmillis := (Instant.exactMillis_eq_ok_iff.mp hexact).2.2
          simp [scalarPiece, hexact, Value.Within, Value.piece, ← hmillis, eq_comm]
  | record inner => exact absurd rfl hkind

section Field

variable {limits : Limits} {path : String} {depth : Nat} {record : Record} {field : Field}
  {octets : Bytes}

theorem encodeField_absent (hget : record.get? field.id = none) :
    encodeField limits path depth record field = .ok octets ↔
      field.required = false ∧ octets = [] := by
  rcases field with ⟨id, name, kind, required, since, layout⟩
  unfold encodeField
  simp only at hget
  rw [hget]
  cases required <;> simp [eq_comm]

theorem encodeField_kindMismatch
    {value : Value} (hget : record.get? field.id = some value) (hkind : value.kind ≠ field.kind) :
    encodeField limits path depth record field ≠ .ok octets := by
  rcases field with ⟨id, name, kind, required, since, layout⟩
  unfold encodeField
  simp only at hget
  rw [hget]
  simp [hkind]

theorem encodeField_eq_scalar
    {value : Value} (hget : record.get? field.id = some value) (hkind : value.kind = field.kind)
    (hscalar : value.kind ≠ .record) :
    encodeField limits path depth record field =
      (scalarPiece limits (path ++ "." ++ field.name) value).map fun piece =>
        Piece.encodeAll (fieldPieces field.id field.kind piece) := by
  rcases field with ⟨id, name, kind, required, since, layout⟩
  simp only at hget hkind ⊢
  unfold encodeField
  rw [hget]
  cases layout with
  | none => cases hpiece : scalarPiece limits (path ++ "." ++ name) value <;>
      simp [hkind, hpiece, Except.map]
  | some nested =>
      cases value with
      | record inner => exact absurd rfl hscalar
      | _ => cases hpiece : scalarPiece limits (path ++ "." ++ name) _ <;>
          simp [hkind, hpiece, Except.map]

theorem encodeField_eq_record
    {inner : Record} {nested : Layout} (hget : record.get? field.id = some (.record inner))
    (hkind : field.kind = .record) (hnested : field.layout = some nested) :
    encodeField limits path depth record field =
      (encodeRecord limits (path ++ "." ++ field.name) (depth + 1) inner nested).map fun octets =>
        Piece.encodeAll (fieldPieces field.id .record (.block octets)) := by
  rcases field with ⟨id, name, kind, required, since, layout⟩
  simp only at hget hkind hnested ⊢
  subst hkind hnested
  unfold encodeField
  rw [hget]
  cases hrecord : encodeRecord limits (path ++ "." ++ name) (depth + 1) inner nested <;>
    simp [Value.kind, hrecord, Except.map]

theorem encodeField_scalar
    {value : Value} (hget : record.get? field.id = some value) (hkind : value.kind = field.kind)
    (hscalar : value.kind ≠ .record) :
    encodeField limits path depth record field = .ok octets ↔
      value.Within limits ∧ octets = Record.entryWritten (field.id, value) := by
  rw [encodeField_eq_scalar hget hkind hscalar, Record.entryWritten, hkind]
  exact map_eq_ok_iff fun piece => scalarPiece_eq_ok_iff hscalar

theorem encodeField_record
    {inner : Record} {nested : Layout} (hget : record.get? field.id = some (.record inner))
    (hkind : field.kind = .record) (hnested : field.layout = some nested)
    (hinner : ∀ path octets, encodeRecord limits path (depth + 1) inner nested = .ok octets ↔
      (inner.CoveredBy nested ∧ inner.Fits limits nested (depth + 1)) ∧ octets = inner.written) :
    encodeField limits path depth record field = .ok octets ↔
      (inner.CoveredBy nested ∧ inner.Fits limits nested (depth + 1)) ∧
        octets = Record.entryWritten (field.id, .record inner) := by
  rw [encodeField_eq_record hget hkind hnested, Record.entryWritten, Value.piece]
  exact map_eq_ok_iff fun octets => hinner _ octets

theorem encodeField_eq_ok_iff
    {version : UInt32} {retired : List UInt32}
    (hkeeps : field.Keeps version retired)
    (hnested : ∀ nested, field.layout = some nested → ∀ inner path octets,
      (encodeRecord limits path (depth + 1) inner nested = .ok octets ↔
        (inner.CoveredBy nested ∧ inner.Fits limits nested (depth + 1)) ∧
          octets = inner.written)) :
    encodeField limits path depth record field = .ok octets ↔
      record.Supplies limits depth field ∧
        octets = Record.entriesWritten (record.entries.filter (·.1 == field.id)) := by
  rw [Record.filter_eq_toList_get?, Record.Supplies]
  simp only [← Record.get?_eq_some_iff]
  cases hget : record.get? field.id with
  | none =>
      rw [encodeField_absent hget]
      simp [Record.entriesWritten]
  | some value =>
      simp only [Option.some.injEq, exists_eq', implies_true, true_and, forall_eq', Option.map_some,
        Option.toList_some, Record.entriesWritten, List.flatMap_singleton]
      by_cases hkind : value.kind = field.kind
      · cases value with
        | record inner =>
            obtain ⟨nested, hlayout⟩ :=
              Option.isSome_iff_exists.mp (hkeeps.nests_iff.mpr hkind.symm)
            rw [encodeField_record hget hkind.symm hlayout (hnested nested hlayout inner)]
            rw [Field.covers_record_iff hlayout, Field.takes_record_iff hkind.symm hlayout]
        | _ =>
            rw [encodeField_scalar hget hkind (by simp [Value.kind]),
              Field.takes_iff_of_ne_record (by simp)]
            simp [hkind, Field.covers_of_ne_record]
      · have hfail : ¬ encodeField limits path depth record field = .ok octets :=
          encodeField_kindMismatch hget hkind
        simp only [hfail, false_iff]
        rintro ⟨⟨_, htakes⟩, _⟩
        exact hkind htakes.kind_eq

end Field

theorem encodeFields_cons
    {limits : Limits} {path : String} {depth : Nat} {record : Record} {field : Field}
    {rest : List Field} :
    encodeFields limits path depth record (field :: rest) =
      (encodeField limits path depth record field).bind fun front =>
        (encodeFields limits path depth record rest).map fun back => front ++ back := by
  rw [encodeFields]
  cases encodeField limits path depth record field <;>
    cases encodeFields limits path depth record rest <;> rfl

theorem encodeFields_eq_ok_iff
    {limits : Limits} {path : String} {depth : Nat} {record : Record} {fields : List Field}
    {octets : Bytes} {Writes : Field → Prop} {front : Field → Bytes}
    (hfield : ∀ field ∈ fields, ∀ octets,
      encodeField limits path depth record field = .ok octets ↔
        Writes field ∧ octets = front field) :
    encodeFields limits path depth record fields = .ok octets ↔
      (∀ field ∈ fields, Writes field) ∧ octets = fields.flatMap front := by
  induction fields generalizing octets with
  | nil => simp [encodeFields, eq_comm]
  | cons field rest ih =>
      have hfirst := hfield field List.mem_cons_self
      have hrest := fun octets => @ih octets fun other hother =>
        hfield other (List.mem_cons_of_mem _ hother)
      rw [encodeFields_cons, List.forall_mem_cons, List.flatMap_cons]
      cases hwrite : encodeField limits path depth record field with
      | error cause => simp [Except.bind, not_of_eq_error hfirst hwrite]
      | ok written =>
          obtain ⟨hwrites, rfl⟩ := (hfirst _).mp hwrite
          rw [and_iff_right hwrites]
          exact map_eq_ok_iff hrest

/-- A record is written exactly when a sound layout covers it and it fits, and then in its written
form. -/
theorem encodeRecord_eq_ok_iff
    {limits : Limits} {path : String} {depth : Nat} {record : Record} {layout : Layout}
    {octets : Bytes} {version : UInt32} (hsound : layout.Sound version) :
    encodeRecord limits path depth record layout = .ok octets ↔
      (record.CoveredBy layout ∧ record.Fits limits layout depth) ∧ octets = record.written := by
  induction hsound generalizing path depth record octets with
  | @intro layout here _ ih =>
      rcases layout with ⟨fields, retired⟩
      have hfield : ∀ field ∈ fields, ∀ octets,
          encodeField limits path depth record field = .ok octets ↔
            record.Supplies limits depth field ∧
              octets = Record.entriesWritten (record.entries.filter (·.1 == field.id)) :=
        fun field hmem octets => encodeField_eq_ok_iff (here.2 field hmem)
          fun nested hnested inner path octets => ih field hmem nested hnested
      rw [encodeRecord, Record.coveredBy_and_fits_iff_supplies here.1]
      split
      next hdeep =>
        simp [Nat.not_le.mpr hdeep]
      rename_i hdepth
      split
      next id value hforeign =>
        have hnot : ¬ record.Declared ⟨fields, retired⟩ := by
          intro hdeclared
          apply hdeclared _ (List.mem_of_find?_eq_some hforeign)
          simpa using List.find?_some hforeign
        simp [hnot]
      next hforeign =>
        have hdeclared : record.Declared ⟨fields, retired⟩ := fun entry hmem hnone =>
          List.find?_eq_none.mp hforeign entry hmem (Option.isNone_iff_eq_none.mpr hnone)
        have hentries : ∀ entry ∈ record.entries, ∃ field ∈ fields, field.id = entry.1 := by
          intro entry hmem
          obtain ⟨field, hknown⟩ := Option.ne_none_iff_exists'.mp (hdeclared entry hmem)
          exact ⟨field, (Layout.field?_eq_some_iff here.1).mp hknown⟩
        rw [encodeFields_eq_ok_iff hfield, ← Record.entriesWritten_flatMap,
          Record.flatMap_filter_eq here.1 record.ascending hentries, Record.written_eq]
        simp [hdeclared, Nat.not_lt.mp hdepth]

theorem encode_eq_ok_iff
    {schema : Schema} {record : Record} {limits : Limits} {payload : Bytes} :
    encode schema record limits = .ok payload ↔
      (record.CoveredBy schema.layout ∧ record.Fits limits schema.layout 0) ∧
        payload = Varint.encode schema.version.toNat ++ record.written ∧
        payload.length ≤ limits.maxPayloadBytes.toNat := by
  have hrecord := fun octets => @encodeRecord_eq_ok_iff limits schema.eventType 0 record
    schema.layout octets schema.version schema.layout_sound
  have hnumber : (Piece.varint schema.version.toUInt64).encode =
      Varint.encode schema.version.toNat := by
    rw [Piece.encode, UInt32.toNat_toUInt64]
  unfold encode
  cases hfields : encodeRecord limits schema.eventType 0 record schema.layout with
  | error cause => simp [not_of_eq_error hrecord hfields]
  | ok fields =>
      obtain ⟨hfits, rfl⟩ := (hrecord _).mp hfields
      simp only [hnumber, hfits, true_and]
      split
      next hlong =>
        simp only [reduceCtorEq, false_iff]
        rintro ⟨rfl, hshort⟩
        omega
      next hshort =>
        constructor
        · intro hpayload
          cases hpayload
          exact ⟨rfl, Nat.not_lt.mp hshort⟩
        · intro h
          rcases h with ⟨rfl, _⟩
          rfl

end Payload
end EventCourier
