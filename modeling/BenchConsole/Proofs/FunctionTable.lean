import BenchConsole.FunctionTable
import BenchConsole.Proofs.Text.Words
import Mathlib.Data.List.Nodup

/-!
# Names in the tables

What the tables of functions and keywords have to keep up for names to be read at all: every name
is a word that fits the bound, no two names of a table agree up to case, and every function named
by a verb implies an action of its category. Each is checked by going through the tables; from
there on `resolve_eq_some_iff` and `lookup_eq_some_iff` speak of entries, not of a search.
-/

namespace BenchConsole

open Text

variable {function name word : String} {action : Action} {category : Category}
  {entry : FunctionEntry}

/-- A word that fits the bound with room to spare. -/
structure IsTableName (name : String) : Prop where
  word : IsWord name.toList
  ne_nil : name.toList ≠ []
  short : name.toList.length < maxTextLength

instance : Decidable (IsTableName name) :=
  decidable_of_iff
    (IsWord name.toList ∧ name.toList ≠ [] ∧ name.toList.length < maxTextLength)
    ⟨fun h => ⟨h.1, h.2.1, h.2.2⟩, fun h => ⟨h.word, h.ne_nil, h.short⟩⟩

/-- A name in any case of its letters is as good as the name itself. -/
theorem IsTableName.of_sameName {other : String} (h : IsTableName name)
    (hs : sameName name other) : IsTableName other where
  word := h.word.of_sameWord hs
  ne_nil hnil := by
    refine h.ne_nil ?_
    rw [← List.length_eq_zero_iff, length_eq_of_sameWord hs, hnil]
    rfl
  short := length_eq_of_sameWord hs ▸ h.short

/-- In a table whose names differ, a search finds the one entry of a name. -/
theorem find?_sameName_eq_some_iff {l : List α} {a : α} (key : α → String)
    (hn : (l.map fun a => lower (key a).toList).Nodup) :
    l.find? (fun a => sameName (key a) name) = some a ↔ a ∈ l ∧ sameName (key a) name := by
  constructor
  · intro hf
    have hs := List.find?_some hf
    exact ⟨List.mem_of_find?_eq_some hf, hs⟩
  · rintro ⟨ha, hs⟩
    cases hb : l.find? (fun a => sameName (key a) name) with
    | none =>
      have hnot := List.find?_eq_none.mp hb a ha
      exact absurd hs hnot
    | some b =>
      have hfound := List.find?_some hb
      have hsame := (sameWord_iff.mp hfound).trans (sameWord_iff.mp hs).symm
      rw [List.inj_on_of_nodup_map hn (List.mem_of_find?_eq_some hb) ha hsame]

/-! ## Keywords -/

namespace Category

theorem isTableName_keyword (category : Category) :
    ∀ entry ∈ category.keywords, IsTableName entry.1 := by
  cases category <;> decide +kernel

theorem isTableName_of_sameName {keyword : String} (hmem : (keyword, action) ∈ category.keywords)
    (hs : sameName keyword word) : IsTableName word :=
  (isTableName_keyword category _ hmem).of_sameName hs

/-- Keywords do not read as truth values. -/
theorem keyword_ne_boolText (category : Category) : ∀ entry ∈ category.keywords,
    sameName entry.1 "true" = false ∧ sameName entry.1 "false" = false := by
  cases category <;> decide +kernel

theorem nodup_keywords (category : Category) :
    (category.keywords.map fun entry => lower entry.1.toList).Nodup := by
  cases category <;> decide +kernel

theorem lookup_eq_some_iff : category.lookup word = some action ↔
    ∃ keyword, (keyword, action) ∈ category.keywords ∧ sameName keyword word := by
  rw [lookup, Option.map_eq_some_iff]
  constructor
  · rintro ⟨⟨keyword, action⟩, hf, rfl⟩
    exact ⟨keyword, (find?_sameName_eq_some_iff Prod.fst (nodup_keywords category)).mp hf⟩
  · rintro ⟨keyword, hmem⟩
    exact ⟨(keyword, action),
      (find?_sameName_eq_some_iff Prod.fst (nodup_keywords category)).mpr hmem, rfl⟩

end Category

/-! ## Functions -/

namespace FunctionTable

theorem isTableName_function :
    ∀ entry ∈ entries, IsTableName entry.function := by
  decide +kernel

theorem isTableName_of_sameName (he : entry ∈ entries) (hs : sameName entry.function name) :
    IsTableName name :=
  (isTableName_function entry he).of_sameName hs

theorem nodup_entries : (entries.map fun entry => lower entry.function.toList).Nodup := by
  decide +kernel

theorem mem_entries_name (category : Category) : ⟨category.name, category, .keyword⟩ ∈ entries := by
  cases category <;> decide

theorem resolve_eq_some_iff :
    resolve name = some entry ↔ entry ∈ entries ∧ sameName entry.function name :=
  find?_sameName_eq_some_iff FunctionEntry.function nodup_entries

theorem resolve_eq_none_iff :
    resolve name = none ↔ ∀ entry ∈ entries, ¬sameName entry.function name := by
  simp [resolve]

/-- Cutting a text to the bound makes no name of the table out of it. -/
theorem sameName_bounded_iff {cs : List Char} (h : entry ∈ entries) :
    sameName entry.function (String.ofList (bounded cs)) ↔
      sameName entry.function (String.ofList cs) := by
  have hshort := (isTableName_function entry h).short
  by_cases hcs : cs.length ≤ maxTextLength
  · rw [bounded_eq_self_iff.mpr hcs]
  · have hlong : (bounded cs).length = maxTextLength := by
      rw [bounded, List.length_take]
      omega
    constructor
    all_goals
      intro hs
      have hlen := length_eq_of_sameWord hs
      rw [String.toList_ofList] at hlen
      omega

/-- A text that is a name of the table keeps its length. -/
theorem bounded_of_sameName {cs : List Char} (h : entry ∈ entries)
    (hs : sameName entry.function (String.ofList cs)) : bounded cs = cs := by
  have hshort := (isTableName_of_sameName h hs).short
  rw [String.toList_ofList] at hshort
  exact bounded_eq_self_iff.mpr hshort.le

/-! ## Verbs -/

theorem verbOf?_congr {a b : String} (h : sameName a b) : verbOf? a = verbOf? b := by
  simp only [verbOf?, sameWord_iff.mp h]

theorem impliedAction_congr {a b : String} (h : sameName a b) :
    impliedAction a category = impliedAction b category := by
  rw [impliedAction, verbOf?_congr h, impliedAction]

/-- A function named by a verb has an action. -/
theorem exists_impliedAction : ∀ entry ∈ entries, entry.form = .verb →
    (impliedAction entry.function entry.category).isSome := by
  decide +kernel

/-- The verb that `name` starts with: no longer one starts it, up to case. -/
structure IsLeadingVerb (verb name : String) : Prop where
  mem : verb ∈ verbs
  starts : verb.toList <+: lower name.toList
  longest : ∀ other ∈ verbs, other.toList <+: lower name.toList → other.length ≤ verb.length

theorem longerVerb_spec {best : Option String} {verb : String} :
    ∃ longer, longerVerb best verb = some longer ∧ (longer = verb ∨ longer ∈ best) ∧
      verb.length ≤ longer.length ∧ ∀ other ∈ best, other.length ≤ longer.length := by
  cases best with
  | none => exact ⟨verb, rfl, .inl rfl, Nat.le_refl _, by simp⟩
  | some other =>
    by_cases h : other.length ≤ verb.length
    · exact ⟨verb, if_pos h, .inl rfl, Nat.le_refl _, by simpa using h⟩
    · exact ⟨other, if_neg h, .inr rfl, by omega, by simp⟩

/-- Going through a list finds one of its longest members. -/
theorem foldl_longerVerb (l : List String) (best : Option String) (h : best ≠ none ∨ l ≠ []) :
    ∃ longest, l.foldl longerVerb best = some longest ∧ (longest ∈ l ∨ longest ∈ best) ∧
      (∀ other ∈ l, other.length ≤ longest.length) ∧
      ∀ other ∈ best, other.length ≤ longest.length := by
  induction l generalizing best with
  | nil =>
    obtain ⟨verb, rfl⟩ := Option.ne_none_iff_exists'.mp (h.resolve_right fun hn => hn rfl)
    exact ⟨verb, rfl, .inr rfl, by simp, by simp⟩
  | cons verb l ih =>
    obtain ⟨longer, hlonger, hmem, hle, hbest⟩ := @longerVerb_spec best verb
    obtain ⟨longest, hf, hin, hall, hmost⟩ := ih (longerVerb best verb) (.inl (by simp [hlonger]))
    rw [hlonger] at hin hmost
    have hlast := hmost longer rfl
    refine ⟨longest, hf, ?_, ?_, fun other ho => (hbest other ho).trans hlast⟩
    · rcases hin with hin | hin
      · exact .inl (List.mem_cons_of_mem _ hin)
      · obtain rfl := Option.some.inj hin
        rcases hmem with rfl | hmem
        · exact .inl List.mem_cons_self
        · exact .inr hmem
    · intro other ho
      rcases List.mem_cons.mp ho with rfl | ho
      · exact hle.trans hlast
      · exact hall other ho

theorem IsLeadingVerb.unique {verb other : String} (h : IsLeadingVerb verb name)
    (ho : IsLeadingVerb other name) : verb = other := by
  have hlen : verb.toList.length = other.toList.length :=
    Nat.le_antisymm (ho.longest verb h.mem h.starts) (h.longest other ho.mem ho.starts)
  have hstart := List.prefix_of_prefix_length_le h.starts ho.starts hlen.le
  exact String.toList_inj.mp (hstart.eq_of_length hlen)

theorem verbOf?_eq_some_iff {verb : String} :
    verbOf? name = some verb ↔ IsLeadingVerb verb name := by
  have hfilter {other : String} :
      other ∈ verbs.filter (fun verb => verb.toList.isPrefixOf (lower name.toList)) ↔
        other ∈ verbs ∧ other.toList <+: lower name.toList := by
    rw [List.mem_filter, List.isPrefixOf_iff_prefix]
  have hleading {longest : String} (hne : verbs.filter (fun verb =>
      verb.toList.isPrefixOf (lower name.toList)) ≠ []) (hl : verbOf? name = some longest) :
      IsLeadingVerb longest name := by
    obtain ⟨other, ho, hin, hall, -⟩ := foldl_longerVerb _ none (.inr hne)
    obtain rfl := Option.some.inj (hl.symm.trans ho)
    have hmem := hfilter.mp (hin.resolve_right (by simp))
    exact ⟨hmem.1, hmem.2, fun other h₁ h₂ => hall other (hfilter.mpr ⟨h₁, h₂⟩)⟩
  constructor
  · intro h
    refine hleading ?_ h
    intro he
    simp [verbOf?, he] at h
  · intro h
    have hne := List.ne_nil_of_mem (hfilter.mpr ⟨h.mem, h.starts⟩)
    obtain ⟨longest, hl, -⟩ := foldl_longerVerb _ none (.inr hne)
    rw [h.unique (hleading hne hl), ← hl]
    rfl

end FunctionTable

end BenchConsole
