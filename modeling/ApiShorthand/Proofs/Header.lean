import ApiShorthand.Header
import ApiShorthand.Proofs.Text.Blank
import ApiShorthand.Proofs.Yaml.Proper

/-!
# Correctness of headers

A header stands for entries (`Header.StandsFor`): for those of the mapping that it means, or for
none. A document goes behind them unless they have one of its sections, and every other header is
refused (`Header.IsRefused`). As the keys of a header are distinct and none of them is that of a
section, the sections go behind the header as they would if they were inserted one after the other:
nothing is overwritten and nothing moves (`Document.under_assembles`).
-/

namespace ApiShorthand

namespace Header

/-- What entries a header stands for. -/
inductive StandsFor (header : String) : List (String × Json) → Prop where
  /-- A blank header has no entries. -/
  | blank (hblank : Text.IsBlankText header.toList) : StandsFor header []
  /-- The value null has no entries. -/
  | null (hvisible : ¬ Text.IsBlankText header.toList) (hread : Yaml.read header = .ok .null) :
    StandsFor header []
  /-- A mapping has its own entries. -/
  | mapping {entries : List (String × Json)} (hvisible : ¬ Text.IsBlankText header.toList)
    (hread : Yaml.read header = .ok (.object entries)) : StandsFor header entries

/-- Which headers are refused, and why. -/
inductive IsRefused (header : String) : Fault → Prop where
  /-- The header has the section `paths`, and the other one or not. -/
  | definesPaths {entries : List (String × Json)} (hentries : StandsFor header entries)
    (hpaths : "paths" ∈ Table.keys entries) :
    IsRefused header (.header (.definesSection "paths"))
  /-- Of the two sections, the header has `definitions` only. -/
  | definesDefinitions {entries : List (String × Json)} (hentries : StandsFor header entries)
    (hpaths : "paths" ∉ Table.keys entries) (hdefinitions : "definitions" ∈ Table.keys entries) :
    IsRefused header (.header (.definesSection "definitions"))
  /-- The header means a value that is neither null nor a mapping. -/
  | notMapping {value : Json} (hvisible : ¬ Text.IsBlankText header.toList)
    (hread : Yaml.read header = .ok value) (hnull : value ≠ .null)
    (hobject : ∀ entries, value ≠ .object entries) : IsRefused header (.header .notMapping)
  /-- The header cannot be read. -/
  | unreadable {cause : Yaml.Fault} (hvisible : ¬ Text.IsBlankText header.toList)
    (hread : Yaml.read header = .error cause) : IsRefused header (.yaml cause)

variable {header : String} {entries : List (String × Json)}

/-! ### Entries -/

theorem read_of_isBlankText (h : Text.IsBlankText header.toList) : read header = .ok [] := by
  rw [read, Text.trim_eq_nil_iff.2 h]
  rfl

/-- A header in which something is visible is read as YAML. -/
theorem read_of_not_isBlankText (h : ¬ Text.IsBlankText header.toList) :
    read header = match Yaml.read header with
      | .ok value => entriesOf value
      | .error cause => .error (.yaml cause) := by
  have htrim : (Text.trim header.toList).isEmpty = false := by
    rw [List.isEmpty_eq_false_iff, Ne, Text.trim_eq_nil_iff]
    exact h
  rw [read, htrim]
  rfl

theorem entriesOf_eq_ok_iff {value : Json} :
    entriesOf value = .ok entries ↔ value = .null ∧ entries = [] ∨ value = .object entries := by
  cases value with
  | null => simp [entriesOf, eq_comm]
  | object => simp [entriesOf]
  | _ => simp [entriesOf]

theorem read_eq_ok_iff : read header = .ok entries ↔ StandsFor header entries := by
  by_cases hblank : Text.IsBlankText header.toList
  · rw [read_of_isBlankText hblank]
    constructor
    · rintro ⟨⟩
      exact .blank hblank
    · rintro (_ | ⟨hvisible, -⟩ | ⟨hvisible, -⟩)
      · rfl
      · exact absurd hblank hvisible
      · exact absurd hblank hvisible
  · rw [read_of_not_isBlankText hblank]
    constructor
    · intro h
      cases hread : Yaml.read header with
      | error cause =>
        rw [hread] at h
        cases h
      | ok value =>
        rw [hread] at h
        obtain ⟨rfl, rfl⟩ | rfl := entriesOf_eq_ok_iff.1 h
        · exact .null hblank hread
        · exact .mapping hblank hread
    · rintro (hempty | ⟨-, hread⟩ | ⟨-, hread⟩)
      · exact absurd hempty hblank
      · rw [hread]
        rfl
      · rw [hread]
        rfl

/-- A header that stands for no entries at all is refused. -/
theorem isRefused_of_read_eq_error {fault : Fault} (h : read header = .error fault) :
    IsRefused header fault := by
  by_cases hblank : Text.IsBlankText header.toList
  · rw [read_of_isBlankText hblank] at h
    cases h
  · rw [read_of_not_isBlankText hblank] at h
    cases hread : Yaml.read header with
    | error cause =>
      rw [hread] at h
      cases h
      exact .unreadable hblank hread
    | ok value =>
      rw [hread] at h
      cases value with
      | null => cases h
      | object => cases h
      | _ =>
        cases h
        exact .notMapping hblank hread (by simp) (by simp)

theorem entriesOf_eq_error {value : Json} (hnull : value ≠ .null)
    (hobject : ∀ entries, value ≠ .object entries) :
    entriesOf value = .error (.header .notMapping) := by
  cases value with
  | null => exact absurd rfl hnull
  | object entries => exact absurd rfl (hobject entries)
  | _ => rfl

/-- What a header stands for is proper, as all that is read. -/
theorem StandsFor.isProper (h : StandsFor header entries) : (Json.object entries).IsProper := by
  cases h with
  | blank => exact .object List.nodup_nil (List.forall_mem_nil _)
  | null => exact .object List.nodup_nil (List.forall_mem_nil _)
  | mapping hvisible hread => exact Yaml.isProper_of_read hread

theorem StandsFor.nodup_keys (h : StandsFor header entries) : (Table.keys entries).Nodup :=
  (Json.isProper_object_iff.1 h.isProper).1

/-! ### Sections -/

/-- The section `paths` is looked for first. -/
theorem checkSections_eq (entries : List (String × Json)) (document : Document) :
    checkSections entries (document.sections.map Prod.fst) =
      if "paths" ∈ Table.keys entries then .error (.header (.definesSection "paths"))
      else if "definitions" ∈ Table.keys entries then
        .error (.header (.definesSection "definitions"))
      else .ok () := by
  have hany : ∀ key,
      (entries.any fun entry => entry.1 == key) = decide (key ∈ Table.keys entries) := by
    intro key
    rw [Bool.eq_iff_iff, decide_eq_true_iff, List.any_eq_true, Table.keys, List.mem_map]
    simp
  rw [checkSections, Document.sections, List.map_cons, List.map_singleton, List.find?_cons,
    List.find?_singleton, hany, hany]
  by_cases hpaths : "paths" ∈ Table.keys entries
  · rw [if_pos hpaths, decide_eq_true hpaths]
  · rw [if_neg hpaths, decide_eq_false hpaths]
    by_cases hdefinitions : "definitions" ∈ Table.keys entries
    · rw [if_pos hdefinitions, decide_eq_true hdefinitions]
      rfl
    · rw [if_neg hdefinitions, decide_eq_false hdefinitions]
      rfl

end Header

/-! ### Assembly -/

namespace Document

variable {document : Document} {header : String} {entries : List (String × Json)}

theorem under_of_standsFor (h : Header.StandsFor header entries) :
    document.under header =
      if "paths" ∈ Table.keys entries then .error (.header (.definesSection "paths"))
      else if "definitions" ∈ Table.keys entries then
        .error (.header (.definesSection "definitions"))
      else .ok (.object (entries ++ document.sections)) := by
  rw [under, Header.read_eq_ok_iff.2 h]
  show (Header.checkSections entries (document.sections.map Prod.fst) >>= fun _ =>
    pure (Json.object (entries ++ document.sections))) = _
  rw [Header.checkSections_eq]
  split_ifs
  · rfl
  · rfl
  · rfl

theorem under_eq_error_of_read {fault : Fault} (h : Header.read header = .error fault) :
    document.under header = .error fault := by
  rw [under, h]
  rfl

theorem under_eq_ok_iff {value : Json} :
    document.under header = .ok value ↔ ∃ entries, Header.StandsFor header entries ∧
      "paths" ∉ Table.keys entries ∧ "definitions" ∉ Table.keys entries ∧
      value = .object (entries ++ document.sections) := by
  constructor
  · intro h
    obtain ⟨entries, hread, -⟩ := Except.bind_eq_ok_iff.1 h
    have hentries := Header.read_eq_ok_iff.1 hread
    rw [under_of_standsFor hentries] at h
    split_ifs at h with hpaths hdefinitions
    cases h
    exact ⟨entries, hentries, hpaths, hdefinitions, rfl⟩
  · rintro ⟨entries, hentries, hpaths, hdefinitions, rfl⟩
    rw [under_of_standsFor hentries, if_neg hpaths, if_neg hdefinitions]

theorem under_eq_error_iff {fault : Fault} :
    document.under header = .error fault ↔ Header.IsRefused header fault := by
  constructor
  · intro h
    cases hread : Header.read header with
    | error cause =>
      rw [under_eq_error_of_read hread] at h
      cases h
      exact Header.isRefused_of_read_eq_error hread
    | ok entries =>
      have hentries := Header.read_eq_ok_iff.1 hread
      rw [under_of_standsFor hentries] at h
      split_ifs at h with hpaths hdefinitions
      · cases h
        exact .definesPaths hentries hpaths
      · cases h
        exact .definesDefinitions hentries hpaths hdefinitions
  · intro h
    cases h with
    | definesPaths hentries hpaths => rw [under_of_standsFor hentries, if_pos hpaths]
    | definesDefinitions hentries hpaths hdefinitions =>
      rw [under_of_standsFor hentries, if_neg hpaths, if_pos hdefinitions]
    | notMapping hvisible hread hnull hobject =>
      apply under_eq_error_of_read
      rw [Header.read_of_not_isBlankText hvisible, hread]
      exact Header.entriesOf_eq_error hnull hobject
    | unreadable hvisible hread =>
      apply under_eq_error_of_read
      rw [Header.read_of_not_isBlankText hvisible, hread]

/-- The sections of a document go behind entries of other keys as they do when they are inserted. -/
theorem insertAll_sections (hpaths : "paths" ∉ Table.keys entries)
    (hdefinitions : "definitions" ∉ Table.keys entries) :
    Table.insertAll entries document.sections = entries ++ document.sections := by
  refine Table.insertAll_eq_append (show ["paths", "definitions"].Nodup by decide) ?_
  exact List.forall_mem_cons.2 ⟨hpaths, List.forall_mem_singleton.2 hdefinitions⟩

theorem nodup_keys_append_sections (document : Document) (hentries : (Table.keys entries).Nodup)
    (hpaths : "paths" ∉ Table.keys entries) (hdefinitions : "definitions" ∉ Table.keys entries) :
    (Table.keys (entries ++ document.sections)).Nodup := by
  rw [Table.keys_append]
  refine hentries.append (show ["paths", "definitions"].Nodup by decide) ?_
  intro key hkey hsection
  rcases List.mem_pair.1 hsection with rfl | rfl
  · exact hpaths hkey
  · exact hdefinitions hkey

/-- **A document goes behind its header.**

It does so exactly if the header is blank, null, or a mapping with neither of the two sections; the
value then has the entries of the header as they are, and behind them `paths` and `definitions` with
all keys of the document in their order. Every other header is refused for the reason that
`Header.IsRefused` gives.

All keys of the value are distinct, and it is the header into which both sections were inserted. So
it is the header again without its last two entries, whatever the document, and what is found under
the names of the sections does not depend on the header. -/
theorem under_assembles (document : Document) (header : String) :
    (∀ value, document.under header = .ok value ↔
      ∃ entries, Header.StandsFor header entries ∧
        "paths" ∉ Table.keys entries ∧ "definitions" ∉ Table.keys entries ∧
        value = .object (entries ++
          [("paths", .object (document.paths.mapValues fun item =>
              .object (item.mapValues Operation.toJson))),
            ("definitions", .object (document.definitions.mapValues Schema.toJson))])) ∧
    (∀ fault, document.under header = .error fault ↔ Header.IsRefused header fault) ∧
    ∀ value, document.under header = .ok value → ∃ entries, value = .object entries ∧
      (Table.keys entries).Nodup ∧
      Header.StandsFor header entries.dropLast.dropLast ∧
      entries = Table.insertAll entries.dropLast.dropLast document.sections ∧
      Table.find? "paths" entries = some (pathsJson document.paths) ∧
      Table.find? "definitions" entries = some (definitionsJson document.definitions) := by
  refine ⟨fun value => under_eq_ok_iff, fun fault => under_eq_error_iff, ?_⟩
  intro value h
  obtain ⟨entries, hentries, hpaths, hdefinitions, rfl⟩ := under_eq_ok_iff.1 h
  have hnodup := document.nodup_keys_append_sections hentries.nodup_keys hpaths hdefinitions
  have hfront : (entries ++ document.sections).dropLast.dropLast = entries := by
    simp [sections]
  refine ⟨_, rfl, hnodup, ?_, ?_, ?_, ?_⟩
  · rwa [hfront]
  · rw [hfront, insertAll_sections hpaths hdefinitions]
  · rw [Table.find?_eq_some_iff hnodup]
    exact List.mem_append_right _ List.mem_cons_self
  · rw [Table.find?_eq_some_iff hnodup]
    exact List.mem_append_right _ (List.mem_cons_of_mem _ List.mem_cons_self)

/-- No order of the keys and no way to quote them hides `paths`. -/
example :
    (match under ⟨[], []⟩ "definitions: 1\n'swagger': 2\n\"p\\x61ths\": 3" with
      | .ok _ => none
      | .error fault => fault.message?) =
      some "Header error: the header already defines `paths`" := by
  decide +kernel

end Document

end ApiShorthand
