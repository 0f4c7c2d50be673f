import SearchBar.Proofs.Search.Matching
import SearchBar.Proofs.Text.Sigma

/-! # Terms in records

A term is looked for in lower case, in the lower case of the texts that are scanned. Where it
stands in one of them letter by letter it is found, unless one of its capital sigmas is
lowered by what stands around the term.
-/

namespace SearchBar

open Text

variable {options : SearchOptions} {record v : Json} {s t key name : String} {wide : Bool}
  {needle cs part : List Char}

theorem containsText_iff : containsText part cs = true ↔ part <:+: cs := by
  induction cs with
  | nil => simp [containsText]
  | cons c cs ih =>
    rw [containsText, Bool.or_eq_true, List.isPrefixOf_iff_prefix, ih, List.infix_cons_iff]

mutual

theorem mentions_eq_any (wide : Bool) (needle : List Char) :
    ∀ a : Json, mentions wide needle a = a.leaves.any (mentions wide needle)
  | .arr items => by rw [mentions, Json.leaves, anyMentions_eq_any]
  | .null | .bool _ | .int _ | .float _ | .str _ | .obj _ => by simp [Json.leaves]

theorem anyMentions_eq_any (wide : Bool) (needle : List Char) :
    ∀ items : List Json, anyMentions wide needle items =
      (Json.allLeaves items).any (mentions wide needle)
  | [] => rfl
  | a :: items => by
    rw [anyMentions, Json.allLeaves, List.any_append, mentions_eq_any, anyMentions_eq_any]

end

/-- The texts of a record in which terms are looked for, in lists of any depth: those of all
members if there are no default fields, otherwise those that the default fields have. -/
inductive Scans (options : SearchOptions) (record : Json) (s : String) : Prop
  | everywhere {members : List (String × Json)} {key : String} {value : Json}
      (hfields : options.defaultFields = []) (hrecord : record = .obj members)
      (hmember : (key, value) ∈ members) (hs : .str s ∈ value.leaves) : Scans options record s
  | inField {field : String} {value : Json} (hfield : field ∈ options.defaultFields)
      (hvalue : record.lookup? field = some value) (hs : .str s ∈ value.leaves) :
      Scans options record s

section Found

theorem mentions_of_mem_leaves (hs : .str s ∈ v.leaves) (h : needle <:+: lower s.toList) :
    mentions wide needle v = true := by
  rw [mentions_eq_any, List.any_eq_true]
  exact ⟨.str s, hs, by rwa [mentions, containsText_iff]⟩

theorem mentionsTerm_of_scans (hs : Scans options record s)
    (h : lower t.toList <:+: lower s.toList) : mentionsTerm options record t = true := by
  unfold mentionsTerm
  cases hs with
  | @everywhere members key value hfields hrecord hmember hs =>
    rw [hfields, List.isEmpty_nil, if_pos rfl, hrecord]
    exact List.any_eq_true.2 ⟨(key, value), hmember, mentions_of_mem_leaves hs h⟩
  | @inField field value hfield hvalue hs =>
    rw [if_neg (by simpa using List.ne_nil_of_mem hfield)]
    refine List.any_eq_true.2 ⟨field, hfield, ?_⟩
    rw [hvalue, Option.any_some, mentions_of_mem_leaves hs h]

end Found

section Single

def scannedKey (options : SearchOptions) : String := options.defaultFields.headD ""

theorem scans_single (options : SearchOptions) (s : String) :
    Scans options (.obj [(scannedKey options, .str s)]) s := by
  unfold scannedKey
  cases hfields : options.defaultFields with
  | nil => exact .everywhere hfields rfl (List.mem_singleton_self _) (by simp [Json.leaves])
  | cons field fields =>
    have hvalue : (Json.obj [(field, .str s)]).lookup? field = some (.str s) := by
      simp [Json.lookup?, Json.member?, Json.find?, Json.isNull]
    exact .inField (hfields ▸ List.mem_cons_self) hvalue (by simp [Json.leaves])

theorem eq_of_member?_single (h : (Json.obj [(key, .str s)]).member? name = some v) :
    v = .str s := by
  simp only [Json.member?, Json.find?, List.find?_singleton] at h
  split at h <;> simp_all

theorem eq_of_lookup?_single (h : (Json.obj [(key, .str s)]).lookup? name = some v) :
    v = .str s ∨ v = .obj [(key, .str s)] := by
  have h := (Option.filter_eq_some_iff.1 h).1
  simp only [Option.orElse_eq_orElse, Option.orElse_eq_or, Option.or_eq_some_iff] at h
  rcases h with h | ⟨-, h⟩
  · exact .inl (eq_of_member?_single h)
  · cases hparts : Json.pathParts name.toList with
    | nil =>
      rw [hparts, Json.follow?] at h
      exact .inr (Option.some.inj h).symm
    | cons part parts =>
      rw [hparts, Json.follow?] at h
      obtain ⟨w, hw, h⟩ := Option.bind_eq_some_iff.1 h
      rw [eq_of_member?_single hw] at h
      cases parts with
      | nil => exact .inl (Option.some.inj h).symm
      | cons part parts => simp [Json.follow?, Json.member?] at h

theorem lower_infix_of_mentionsTerm_single
    (h : mentionsTerm options (.obj [(key, .str s)]) t = true) :
    lower t.toList <:+: lower s.toList := by
  rw [← containsText_iff]
  unfold mentionsTerm at h
  split at h
  · simpa [mentions] using h
  · obtain ⟨field, -, h⟩ := List.any_eq_true.1 h
    obtain ⟨v, hv, h⟩ := (Option.any_eq_true _ _).1 h
    rcases eq_of_lookup?_single hv with rfl | rfl
    · simpa [mentions] using h
    · simp [mentions, Json.numberText?] at h

end Single

/-- A term is found in all records in which it stands in a scanned text letter by letter
exactly if its capital sigmas are settled within the term, whatever fields are searched. -/
theorem literal_found_iff (options : SearchOptions) (term : String) :
    (∀ record s, Scans options record s → term.toList <:+: s.toList →
        (Clause.term term true).holds options record = true) ↔
      HasSettledSigmas term.toList := by
  simp only [Clause.holds, beq_true]
  constructor
  · intro h
    refine hasSettledSigmas_iff.2 fun cs hcs => ?_
    have hfound := h _ (String.ofList cs) (scans_single options _) (by rwa [String.toList_ofList])
    simpa only [String.toList_ofList] using lower_infix_of_mentionsTerm_single hfound
  · intro h record s hs hpart
    exact mentionsTerm_of_scans hs (lower_infix_of_settled h hpart)

/-- A final sigma is looked for where a word goes on. -/
theorem not_literal_found_final_sigma :
    let record := Json.obj [("a", .str "\u0391\u03a3\u0391")]
    Scans {} record "\u0391\u03a3\u0391" ∧
      "\u0391\u03a3".toList <:+: "\u0391\u03a3\u0391".toList ∧
      (Clause.term "\u0391\u03a3" true).holds {} record = false := by
  refine ⟨.everywhere rfl rfl (List.mem_singleton_self _) (by simp [Json.leaves]), ?_, ?_⟩
  · exact ⟨[], ['\u0391'], rfl⟩
  · decide +kernel

end SearchBar
