import EventCourier.Json.Fields
import EventCourier.Proofs.Json.RoundTrip
import EventCourier.Settings

/-!
# Settings in a document

Settings are read from an object by their names.  In what order its members stand, and what stands
among them under other names, makes no difference.
-/

namespace EventCourier
namespace Json

/-- The document is an object in which each setting is a member once if it has a value, and else is
none. -/
def Sets (doc : Json) (settings : List (String × Option Json)) : Prop :=
  ∃ members : List (Option String × Json), doc = .object members ∧
    (∀ member ∈ members, member.1.isSome = true) ∧
    ∀ setting ∈ settings, members.filter (·.1 == some setting.1) =
      (setting.2.map fun value => (some setting.1, value)).toList

theorem member?_of_filter
    {members : List (Option String × Json)} {name : String} {value : Option Json}
    (hfilter : members.filter (·.1 == some name) =
      (value.map fun value => (some name, value)).toList) :
    member? members name = some value := by
  rw [member?, hfilter]
  cases value <;> rfl

theorem settings?_of_sets
    {doc : Json} {settings : List (String × Option Json)} (hsets : doc.Sets settings) :
    doc.settings? (settings.map (·.1)) = some (settings.map (·.2)) := by
  rcases hsets with ⟨members, rfl, hkeys, hmembers⟩
  rw [settings?, objectFields?, if_pos (List.all_eq_true.mpr hkeys)]
  induction settings with
  | nil => rfl
  | cons setting rest ih =>
      rcases List.forall_mem_cons.mp hmembers with ⟨hfirst, hrest⟩
      rw [List.map_cons, List.mapM_cons, member?_of_filter hfirst, ih hrest]
      rfl

/-! ## A document for settings -/

/-- The members of the settings that have a value. -/
def settingMembers (settings : List (String × Option Json)) : List (Option String × Json) :=
  settings.filterMap fun setting => setting.2.map fun value => (some setting.1, value)

theorem settingMembers_cons (setting : String × Option Json) (rest : List (String × Option Json)) :
    settingMembers (setting :: rest) =
      (setting.2.map fun value => (some setting.1, value)).toList ++ settingMembers rest := by
  rcases setting with ⟨name, value⟩
  cases value <;> rfl

theorem exists_setting_of_mem
    {settings : List (String × Option Json)} {member : Option String × Json}
    (hmember : member ∈ settingMembers settings) :
    ∃ setting ∈ settings, setting.2 = some member.2 ∧ member.1 = some setting.1 := by
  rcases List.mem_filterMap.mp hmember with ⟨setting, hsetting, hvalue⟩
  rcases Option.map_eq_some_iff.mp hvalue with ⟨value, hsome, rfl⟩
  exact ⟨setting, hsetting, hsome, rfl⟩

theorem filter_settingMembers
    {settings : List (String × Option Json)} {setting : String × Option Json}
    (hdistinct : settings.Pairwise fun a b => a.1 ≠ b.1) (hsetting : setting ∈ settings) :
    (settingMembers settings).filter (·.1 == some setting.1) =
      (setting.2.map fun value => (some setting.1, value)).toList := by
  induction settings with
  | nil => cases hsetting
  | cons first rest ih =>
      rcases List.pairwise_cons.mp hdistinct with ⟨hfirst, hlater⟩
      rw [settingMembers_cons, List.filter_append]
      rcases List.mem_cons.mp hsetting with rfl | hsetting
      · have hrest : (settingMembers rest).filter (·.1 == some setting.1) = [] := by
          rw [List.filter_eq_nil_iff]
          intro member hmember hkey
          rcases exists_setting_of_mem hmember with ⟨other, hother, _, hname⟩
          rw [hname, beq_iff_eq, Option.some.injEq] at hkey
          exact hfirst other hother hkey.symm
        rw [hrest, List.append_nil]
        cases setting.2 <;> simp
      · have hname := hfirst setting hsetting
        rw [ih hlater hsetting]
        cases first.2 <;> simp [hname]

theorem plain_of_mem_map
    {α : Type} {value : Option α} {write : α → Json} (hwrite : ∀ a, (write a).Plain) :
    ∀ doc ∈ value.map write, doc.Plain := by
  intro doc hdoc
  rcases Option.map_eq_some_iff.mp hdoc with ⟨a, _, rfl⟩
  exact hwrite a

theorem exists_text_of_settings
    {settings : List (String × Option Json)}
    (hdistinct : settings.Pairwise fun a b => a.1 ≠ b.1)
    (hplain : ∀ setting ∈ settings, ∀ value ∈ setting.2, value.Plain) :
    ∃ text doc, read? text = some doc ∧ doc.Sets settings := by
  have hmembers : (Json.object (settingMembers settings)).Plain := by
    constructor
    case hkeys =>
      intro member hmember
      rcases exists_setting_of_mem hmember with ⟨setting, _, _, hkey⟩
      exact ⟨setting.1, hkey⟩
    case hvalues =>
      intro member hmember
      rcases exists_setting_of_mem hmember with ⟨setting, hsetting, hvalue, _⟩
      exact hplain setting hsetting _ hvalue
  refine ⟨_, _, read?_compact hmembers, _, rfl, ?_, ?_⟩
  · intro member hmember
    rcases exists_setting_of_mem hmember with ⟨setting, _, _, hkey⟩
    rw [hkey]
    rfl
  · intro setting hsetting
    exact filter_settingMembers hdistinct hsetting

end Json

theorem settingsOfText_of_read?
    {α : Type} {read : Json → Except DocumentError α} {text : String} {doc : Json}
    (htext : Json.read? text = some doc) : settingsOfText read text = read doc := by
  unfold Json.read? at htext
  split at htext
  next first hfirst =>
    cases htext
    rw [settingsOfText, hfirst]
    dsimp only
    cases read doc <;> rfl
  next => cases htext

end EventCourier
