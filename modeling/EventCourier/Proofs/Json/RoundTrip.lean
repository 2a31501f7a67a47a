import EventCourier.Json.Reader
import EventCourier.Proofs.Json.Scanning
import EventCourier.Proofs.Json.Written

/-!
# Documents read back

A document whose numbers are naturals and whose strings are texts is read back from its compact
form.  So its text tells it from every other such document.
-/

namespace EventCourier
namespace Json

/-- Every number in the document is a natural one, and every string and every key in it a text. -/
inductive Plain : Json → Prop
  | null : Plain .null
  | bool (b : Bool) : Plain (.bool b)
  | natural (n : Nat) : Plain (.natural n)
  | text (s : String) : Plain (text s)
  | array {items : List Json} (hitems : ∀ item ∈ items, Plain item) : Plain (.array items)
  | object {members : List (Option String × Json)}
      (hkeys : ∀ member ∈ members, ∃ s, member.1 = some s)
      (hvalues : ∀ member ∈ members, Plain member.2) : Plain (.object members)

/-! ## Tokens -/

/-- The characters begin with the tokens, spelled one right after the other, and go on with the
rest. -/
inductive Begins : List Char → List Token → List Char → Prop
  | done (rest : List Char) : Begins rest [] rest
  | token {c : Char} (spelling : List Char) {after rest : List Char} {token : Token}
      {tokens : List Token}
      (hspace : isSpace c = false)
      (hnext : nextToken? (c :: spelling ++ after) = some (token, after))
      (hlater : Begins after tokens rest) : Begins (c :: spelling ++ after) (token :: tokens) rest

namespace Begins

theorem append
    {chars between rest : List Char} {tokens tokens' : List Token}
    (hfirst : Begins chars tokens between) (hsecond : Begins between tokens' rest) :
    Begins chars (tokens ++ tokens') rest := by
  induction hfirst with
  | done rest => exact hsecond
  | token spelling hspace hnext _ ih => exact .token spelling hspace hnext (ih hsecond)

theorem splitTokens_eq
    {chars : List Char} {tokens : List Token} (hbegins : Begins chars tokens []) {steps : Nat}
    (hsteps : chars.length < steps) (split : List Token) :
    splitTokens steps split chars = split.reverse ++ tokens := by
  generalize hrest : ([] : List Char) = rest at hbegins
  induction hbegins generalizing steps split with
  | done rest =>
      subst hrest
      cases steps <;> simp [splitTokens]
  | @token c spelling after rest token tokens hspace hnext _ ih =>
      cases steps with
      | zero => cases hsteps
      | succ steps =>
          have hafter : after.length < steps := by
            simp only [List.length_append, List.length_cons] at hsteps
            omega
          rw [List.cons_append] at hnext ⊢
          simp only [splitTokens, List.dropWhile_cons, hspace, Bool.false_eq_true, if_false]
          rw [hnext]
          simp [ih hafter _ hrest]

theorem tokens_eq
    {s : String} {split : List Token} (hbegins : Begins s.toList split []) : tokens s = split := by
  rw [tokens, hbegins.splitTokens_eq (Nat.lt_succ_self _), List.reverse_nil, List.nil_append]

/-- A token that is spelled with one character. -/
theorem mark
    {c : Char} {token : Token} {tokens : List Token} {after rest : List Char}
    (hspace : isSpace c = false) (hnext : nextToken? (c :: after) = some (token, after))
    (hafter : Begins after tokens rest) : Begins (c :: after) (token :: tokens) rest :=
  .token [] hspace hnext hafter

theorem writeString
    {s : String} {tokens : List Token} {after rest : List Char}
    (hafter : Begins after tokens rest) :
    Begins ((Json.writeString (some s)).toList ++ after) (.string (some s) :: tokens) rest := by
  have hnext := nextToken?_writeString s after
  simp only [Json.writeString, String.toList_ofList] at hnext ⊢
  exact .token _ rfl hnext hafter

theorem toDigits
    {n : Nat} {tokens : List Token} {after rest : List Char} (hends : Ends after)
    (hafter : Begins after tokens rest) :
    Begins (Nat.toDigits 10 n ++ after) (.atom (.natural n) :: tokens) rest := by
  have hnext := nextToken?_toDigits (n := n) hends
  obtain ⟨c, digits, hdigits, hc⟩ := exists_toDigits_eq_cons n
  have hspace : isSpace c = false := by
    cases hspace : isSpace c with
    | false => rfl
    | true =>
        simp only [isSpace, Bool.or_eq_true, decide_eq_true_eq] at hspace
        rcases hspace with ((rfl | rfl) | rfl) | rfl <;> simp at hc
  rw [hdigits] at hnext ⊢
  exact .token _ hspace hnext hafter

theorem memberChars
    {s : String} {value : Json} {tokens : List Token} {after rest : List Char}
    (hvalue : Begins (value.chars ++ after) tokens rest) :
    Begins (Json.memberChars (some s, value) ++ after) (.string (some s) :: .colon :: tokens)
      rest := by
  have hcolon : Begins (':' :: (value.chars ++ after)) (.colon :: tokens) rest :=
    .mark rfl rfl hvalue
  have hmember := hcolon.writeString (s := s)
  rw [Json.memberChars, List.append_assoc, List.cons_append]
  exact hmember

end Begins

/-! ## Values -/

/-- The tokens of a document are split off where it stands in a text, and assembled to it. -/
structure ReadAs (doc : Json) (tokens : List Token) : Prop where
  begins : ∀ rest, Ends rest → Begins (doc.chars ++ rest) tokens rest
  /-- The first token opens a value, so a bracket before it does not close at once. -/
  opens : ∃ first later, tokens = first :: later ∧ first ≠ .closeBracket
  assembles : ∀ outer rest, assemble outer none (tokens ++ rest) = assemble outer (some doc) rest

theorem ends_itemChars (items : List Json) (rest : List Char) :
    Ends (itemChars items ++ ']' :: rest) := by
  cases items <;> simp [Ends, itemChars]

theorem ends_membersChars (members : List (Option String × Json)) (rest : List Char) :
    Ends (membersChars members ++ '\x7d' :: rest) := by
  cases members <;> simp [Ends, membersChars]

/-- Items that are read one by one are read after a first one, up to the closing bracket. -/
theorem exists_tokens_of_items
    {items : List Json} (hitems : ∀ item ∈ items, ∃ tokens, ReadAs item tokens) :
    ∃ tokens, (∀ rest, Begins (itemChars items ++ ']' :: rest) tokens rest) ∧
      ∀ held value outer rest, assemble (.array held :: outer) (some value) (tokens ++ rest) =
        assemble outer (some (.array ((value :: held).reverse ++ items))) rest := by
  induction items with
  | nil =>
      refine ⟨[.closeBracket], fun rest => ?_, fun held value outer rest => ?_⟩
      · exact .mark rfl rfl (.done rest)
      · simp [assemble]
  | cons item items ih =>
      obtain ⟨⟨tokens, hitem⟩, hlater⟩ := List.forall_mem_cons.mp hitems
      obtain ⟨later, hbegins, hassembles⟩ := ih hlater
      refine ⟨.comma :: (tokens ++ later), fun rest => ?_, fun held value outer rest => ?_⟩
      · have hfirst := hitem.begins _ (ends_itemChars items rest)
        rw [itemChars, List.cons_append, List.append_assoc]
        exact .mark rfl rfl (hfirst.append (hbegins rest))
      · rw [List.cons_append, List.append_assoc, assemble, hitem.assembles, hassembles]
        simp

theorem exists_tokens_of_members
    {members : List (Option String × Json)}
    (hkeys : ∀ member ∈ members, ∃ s, member.1 = some s)
    (hmembers : ∀ member ∈ members, ∃ tokens, ReadAs member.2 tokens) :
    ∃ tokens, (∀ rest, Begins (membersChars members ++ '\x7d' :: rest) tokens rest) ∧
      ∀ held key value outer rest,
        assemble (.object held key :: outer) (some value) (tokens ++ rest) =
          assemble outer (some (.object (((key, value) :: held).reverse ++ members))) rest := by
  induction members with
  | nil =>
      refine ⟨[.closeBrace], fun rest => ?_, fun held key value outer rest => ?_⟩
      · exact .mark rfl rfl (.done rest)
      · simp [assemble]
  | cons member members ih =>
      obtain ⟨⟨s, hkey⟩, hlaterKeys⟩ := List.forall_mem_cons.mp hkeys
      obtain ⟨⟨tokens, hvalue⟩, hlater⟩ := List.forall_mem_cons.mp hmembers
      obtain ⟨later, hbegins, hassembles⟩ := ih hlaterKeys hlater
      rcases member with ⟨key', value'⟩
      obtain rfl : key' = some s := hkey
      refine ⟨.comma :: .string (some s) :: .colon :: (tokens ++ later), fun rest => ?_,
        fun held key value outer rest => ?_⟩
      · have hfirst := (hvalue.begins _ (ends_membersChars members rest)).append (hbegins rest)
        rw [membersChars, List.cons_append, List.append_assoc]
        exact .mark rfl rfl hfirst.memberChars
      · rw [List.cons_append, List.cons_append, List.cons_append, List.append_assoc, assemble,
          hvalue.assembles, hassembles]
        simp

/-! ## Documents -/

/-- A document of a single token. -/
theorem readAs_token
    {doc : Json} (token : Token) (hopens : token ≠ .closeBracket)
    (hbegins : ∀ rest, Ends rest → Begins (doc.chars ++ rest) [token] rest)
    (hassembles : ∀ outer rest,
      assemble outer none (token :: rest) = assemble outer (some doc) rest) :
    ReadAs doc [token] :=
  ⟨hbegins, ⟨token, [], rfl, hopens⟩, hassembles⟩

theorem ReadAs.of_array
    {item : Json} {items : List Json} {tokens later : List Token} (hitem : ReadAs item tokens)
    (hbegins : ∀ rest, Begins (itemChars items ++ ']' :: rest) later rest)
    (hassembles : ∀ held value outer rest,
      assemble (.array held :: outer) (some value) (later ++ rest) =
        assemble outer (some (.array ((value :: held).reverse ++ items))) rest) :
    ReadAs (.array (item :: items)) (.openBracket :: (tokens ++ later)) := by
  refine ⟨fun rest _ => ?_, ⟨_, _, rfl, nofun⟩, fun outer rest => ?_⟩
  · have hitems := (hitem.begins _ (ends_itemChars items rest)).append (hbegins rest)
    rw [chars, List.cons_append, List.append_assoc, List.append_assoc]
    exact .mark rfl rfl hitems
  · obtain ⟨first, others, rfl, hfirst⟩ := hitem.opens
    rw [List.cons_append, List.append_assoc, assemble]
    · rw [hitem.assembles, hassembles]
      rfl
    · intro _ hclose
      rw [List.cons_append] at hclose
      exact hfirst (List.cons.inj hclose).1

theorem ReadAs.of_object
    {s : String} {value : Json} {members : List (Option String × Json)}
    {tokens later : List Token} (hvalue : ReadAs value tokens)
    (hbegins : ∀ rest, Begins (membersChars members ++ '\x7d' :: rest) later rest)
    (hassembles : ∀ held key value outer rest,
      assemble (.object held key :: outer) (some value) (later ++ rest) =
        assemble outer (some (.object (((key, value) :: held).reverse ++ members))) rest) :
    ReadAs (.object ((some s, value) :: members))
      (.openBrace :: .string (some s) :: .colon :: (tokens ++ later)) := by
  refine ⟨fun rest _ => ?_, ⟨_, _, rfl, nofun⟩, fun outer rest => ?_⟩
  · have hfirst := (hvalue.begins _ (ends_membersChars members rest)).append (hbegins rest)
    rw [chars, List.cons_append, List.append_assoc, List.append_assoc]
    exact .mark rfl rfl hfirst.memberChars
  · rw [List.cons_append, List.cons_append, List.cons_append, List.append_assoc, assemble,
      hvalue.assembles, hassembles]
    rfl

theorem Plain.exists_readAs {doc : Json} (hplain : doc.Plain) : ∃ tokens, ReadAs doc tokens := by
  induction hplain with
  | null =>
      refine ⟨_, readAs_token (.atom .null) nofun (fun rest _ => ?_) fun _ _ => ?_⟩
      · exact .token ['u', 'l', 'l'] rfl rfl (.done rest)
      · rw [assemble]
  | bool b =>
      refine ⟨_, readAs_token (.atom (.bool b)) nofun (fun rest _ => ?_) fun _ _ => ?_⟩
      · cases b with
        | false => exact .token ['a', 'l', 's', 'e'] rfl rfl (.done rest)
        | true => exact .token ['r', 'u', 'e'] rfl rfl (.done rest)
      · rw [assemble]
  | natural n =>
      refine ⟨_, readAs_token (.atom (.natural n)) nofun (fun rest hends => ?_)
        fun _ _ => ?_⟩
      · rw [chars]
        exact .toDigits hends (.done rest)
      · rw [assemble]
  | text s =>
      refine ⟨_, readAs_token (.string (some s)) nofun (fun rest _ => ?_) fun _ _ => ?_⟩
      · rw [Json.text, chars]
        exact .writeString (.done rest)
      · rw [assemble, Json.text]
  | @array items _ ih =>
      cases items with
      | nil =>
          refine ⟨[.openBracket, .closeBracket], fun rest _ => ?_, ⟨_, _, rfl, nofun⟩,
            fun outer rest => ?_⟩
          · rw [chars]
            exact .mark rfl rfl (.mark rfl rfl (.done rest))
          · simp only [List.cons_append, List.nil_append, assemble]
      | cons item items =>
          obtain ⟨⟨tokens, hitem⟩, hlater⟩ := List.forall_mem_cons.mp ih
          obtain ⟨later, hbegins, hassembles⟩ := exists_tokens_of_items hlater
          exact ⟨_, hitem.of_array hbegins hassembles⟩
  | @object members hkeys _ ih =>
      cases members with
      | nil =>
          refine ⟨[.openBrace, .closeBrace], fun rest _ => ?_, ⟨_, _, rfl, nofun⟩,
            fun outer rest => ?_⟩
          · rw [chars]
            exact .mark rfl rfl (.mark rfl rfl (.done rest))
          · simp only [List.cons_append, List.nil_append, assemble]
      | cons member members =>
          obtain ⟨⟨s, hkey⟩, hlaterKeys⟩ := List.forall_mem_cons.mp hkeys
          obtain ⟨⟨tokens, hvalue⟩, hlater⟩ := List.forall_mem_cons.mp ih
          obtain ⟨later, hbegins, hassembles⟩ := exists_tokens_of_members hlaterKeys hlater
          rcases member with ⟨key, value⟩
          obtain rfl : key = some s := hkey
          exact ⟨_, hvalue.of_object hbegins hassembles⟩

theorem read?_compact {doc : Json} (hplain : doc.Plain) : read? doc.compact = some doc := by
  obtain ⟨split, hread⟩ := hplain.exists_readAs
  have hbegins := hread.begins [] nofun
  rw [List.append_nil, ← toList_compact] at hbegins
  have hassembles := hread.assembles [] []
  rw [List.append_nil] at hassembles
  rw [read?, readFirst?, hbegins.tokens_eq, hassembles]
  rfl

theorem compact_injective {doc other : Json} (hplain : doc.Plain) (hother : other.Plain)
    (hcompact : doc.compact = other.compact) : doc = other := by
  have hread := read?_compact hplain
  rw [hcompact, read?_compact hother] at hread
  exact (Option.some.inj hread).symm

end Json
end EventCourier
