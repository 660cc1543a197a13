import ApiShorthand.Proofs.Document.RoundTrip
import ApiShorthand.Proofs.Json.RoundTrip

/-!
# The JSON form of documents

Whatever is built is a proper value: its header was read, its sections are regular, and no key is in
both (`isProper_of_buildDocument`). So its JSON form stands for it alone, unless the header has
floating-point numbers, and no two such documents have the same JSON form
(`valueText_indented_buildDocument`).
-/

namespace ApiShorthand

/-! ### Built documents are proper -/

theorem Yaml.Regular.isProper {depth : Nat} {value : Json} (h : Regular depth value) :
    value.IsProper := by
  induction h with
  | null => exact .null
  | bool value => exact .bool value
  | string => exact .string _
  | array _ ih => exact .array ih
  | object hdistinct _ _ ih => exact .object hdistinct ih

/-- **Whatever is built is a proper value.** -/
theorem isProper_of_buildDocument {header modelsText endpointsText : String} {options : Options}
    {value : Json} (h : buildDocument header modelsText endpointsText options = .ok value) :
    value.IsProper := by
  obtain ⟨document, hcompile, hunder⟩ := Except.bind_eq_ok_iff.1 h
  obtain ⟨entries, hentries, hpaths, hdefinitions, rfl⟩ := Document.under_eq_ok_iff.1 hunder
  have hnodup := document.nodup_keys_append_sections hentries.nodup_keys hpaths hdefinitions
  have hheader := (Json.isProper_object_iff.1 hentries.isProper).2
  have hsections := (Json.isProper_object_iff.1 (Document.regular_of_compile hcompile).isProper).2
  exact .object hnodup (List.forall_mem_append.2 ⟨hheader, hsections⟩)

/-! ### Reading what was printed -/

/-- **The JSON form means the document.** A document without floating-point numbers, under whatever
header, has a JSON form that stands for it by the grammar of JSON and for no other value, not even
for one with the keys of an object in another order; and it is read back from it. So two such
documents are equal if their JSON forms are. -/
theorem valueText_indented_buildDocument {header modelsText endpointsText : String}
    {options : Options} {value : Json}
    (h : buildDocument header modelsText endpointsText options = .ok value)
    (hfloat : value.hasFloat = false) :
    (∀ meant, Json.ValueText value.indented.toList meant ↔ meant = value) ∧
      Json.ofString? value.indented = some value ∧
      ∀ (otherHeader otherModels otherEndpoints : String) (otherOptions : Options) (other : Json),
        buildDocument otherHeader otherModels otherEndpoints otherOptions = .ok other →
          other.hasFloat = false → other.indented = value.indented → other = value := by
  have hvalue := isProper_of_buildDocument h
  refine ⟨fun meant => Json.valueText_indented_iff hvalue hfloat,
    Json.ofString?_indented hvalue hfloat, ?_⟩
  intro _ _ _ _ other hother hotherFloat heq
  rw [← Json.valueText_indented_iff hvalue hfloat, ← heq]
  exact (Json.valueText_indented_iff (isProper_of_buildDocument hother) hotherFloat).2 rfl

/-- A header with every kind of escape in its texts, the least and the greatest integer, and empty
and nested collections. -/
def obscureHeader : String :=
  "\"\\0\\\"\\\\\\x01\\u001F\\x7F\\u2028\\U0001F600\": [-9223372036854775808, " ++
  "18446744073709551615, [], \x7b\x7d, [[], [~, -1]], \"\\b\\t\\n\\f\\r/\"]\n" ++
  "'': \x7b'': \x7b\x7d, b: [\x7b0: 0\x7d], a: true\x7d\n𐌸: >\n  \"𐌹\\\n"

theorem valueText_indented_buildDocument_obscure :
    ∃ value, buildDocument obscureHeader "Pet:\n  name*: string" "GET /pets/\x7bid\x7d\n  Pet"
        ⟨true, true⟩ = .ok value ∧
      value.hasFloat = false ∧
      (∀ meant, Json.ValueText value.indented.toList meant ↔ meant = value) ∧
      Json.ofString? value.indented = some value := by
  have hok : (match buildDocument obscureHeader "Pet:\n  name*: string"
        "GET /pets/\x7bid\x7d\n  Pet" ⟨true, true⟩ with
      | .ok value => value.hasFloat
      | .error _ => true) = false := by
    decide +kernel
  cases hvalue : buildDocument obscureHeader "Pet:\n  name*: string" "GET /pets/\x7bid\x7d\n  Pet"
      ⟨true, true⟩ with
  | error fault =>
    rw [hvalue] at hok
    cases hok
  | ok value =>
    rw [hvalue] at hok
    obtain ⟨hmeant, hread, -⟩ := valueText_indented_buildDocument hvalue hok
    exact ⟨value, rfl, hok, hmeant, hread⟩

end ApiShorthand
