import ApiShorthand.Endpoint
import ApiShorthand.Proofs.Grammar.Path
import ApiShorthand.Proofs.Grammar.Type
import ApiShorthand.Proofs.Line.Structural
import Mathlib.Data.List.Nodup

/-!
# The grammar of endpoints texts

`EndpointsText lines endpoints` is the grammar: a header line, the lines of its bodies, and so on.
An endpoints text is accepted exactly if its structural lines are of this form and no two endpoints
share both method and path (`Endpoint.readAll_eq_ok_iff_endpointsText`).

As with models, the reader keeps the endpoints in reverse, the one under construction first; one
line keeps the invariant `Endpoint.HasRead`, and `EndpointsText.reads` is the converse.
-/

namespace ApiShorthand

open Text

namespace TypeRef

/-- The type of one item of a response that is written as this type. -/
def responseItem : TypeRef → TypeRef
  | array item => item
  | type => type

/-- Whether a type is an array. -/
def isArray : TypeRef → Bool
  | array _ => true
  | _ => false

end TypeRef

namespace Grammar

/-- The text of an endpoint header: the name of a method in any letter case, white space, and a
path. -/
def EndpointHeaderText (text : List Char) (method : Method) (path : List Char) : Prop :=
  ∃ word gap, word.map Char.toUpper = method.name.toList ∧ gap ≠ [] ∧ IsBlankText gap ∧
    Path.IsPathText path ∧ text = word ++ (gap ++ path)

/-- The text of a response: an arrow, white space, and a type. -/
def ResponseText (text : List Char) (type : TypeRef) : Prop :=
  ∃ gap token, IsBlankText gap ∧ TypeToken token type ∧ text = '=' :: '>' :: (gap ++ token)

/-- A line at the margin that is an endpoint header. -/
def IsEndpointHeader (line : NumberedLine) (method : Method) (path : List Char) : Prop :=
  ∃ text, IsIndented 0 text line.2 ∧ EndpointHeaderText text method path

/-- A line behind two spaces that declares a response. -/
def DeclaresResponse (line : NumberedLine) (type : TypeRef) : Prop :=
  ∃ text, IsIndented 1 text line.2 ∧ ResponseText text type

/-- A line behind two spaces that declares a request: it is a type. -/
def DeclaresRequest (line : NumberedLine) (type : TypeRef) : Prop :=
  ∃ text, IsIndented 1 text line.2 ∧ TypeToken text type

/-- Lines that declare at most one request and at most one response, in either order, with the
types that they declare. -/
inductive BodyLines : List NumberedLine → Option TypeRef → Option TypeRef → Prop where
  /-- No body is declared. -/
  | nil : BodyLines [] none none
  /-- A request, where there is none yet. -/
  | request {lines : List NumberedLine} {line : NumberedLine} {type : TypeRef}
      {response : Option TypeRef} (hlines : BodyLines lines none response)
      (hline : DeclaresRequest line type) : BodyLines (lines ++ [line]) (some type) response
  /-- A response, where there is none yet. -/
  | response {lines : List NumberedLine} {line : NumberedLine} {type : TypeRef}
      {request : Option TypeRef} (hlines : BodyLines lines request none)
      (hline : DeclaresResponse line type) : BodyLines (lines ++ [line]) request (some type)

/-- The endpoint of a header with the types of its bodies: a response that is written as an array
is kept as its items and a mark. -/
def declaredEndpoint (number : Nat) (method : Method) (path : List Char)
    (request response : Option TypeRef) : Endpoint where
  method := method
  path := String.ofList path
  line := number
  request := request
  response := response.map TypeRef.responseItem
  responseIsArray := response.any TypeRef.isArray

/-- Lines that declare endpoints: a header, its bodies, and the lines of the other endpoints. -/
inductive EndpointsText : List NumberedLine → List Endpoint → Prop where
  /-- No lines declare no endpoints. -/
  | nil : EndpointsText [] []
  /-- A header and its body lines declare one more endpoint. -/
  | endpoint {header : NumberedLine} {body rest : List NumberedLine} {method : Method}
      {path : List Char} {request response : Option TypeRef} {endpoints : List Endpoint}
      (hheader : IsEndpointHeader header method path) (hbody : BodyLines body request response)
      (hrest : EndpointsText rest endpoints) :
      EndpointsText (header :: (body ++ rest))
        (declaredEndpoint header.1 method path request response :: endpoints)

end Grammar

open Grammar

/-! ### Words of a header -/

namespace Method

theorem upperAscii_eq (c : Char) : upperAscii c = c.toUpper := by
  unfold upperAscii Char.toUpper
  by_cases h : 'a' ≤ c ∧ c ≤ 'z'
  · have hval : 'a'.val ≤ c.val ∧ c.val ≤ 'z'.val := h
    rw [if_pos h, dif_pos hval]
    have hlow : 97 ≤ c.val.toNat := UInt32.le_iff_toNat_le.1 hval.1
    have hhigh : c.val.toNat ≤ 122 := UInt32.le_iff_toNat_le.1 hval.2
    have hvalid : (c.toNat - 32).isValidChar := by
      left
      have hc : c.toNat = c.val.toNat := rfl
      omega
    apply Char.ext
    rw [← UInt32.toNat_inj]
    show (Char.ofNat (c.toNat - 32)).toNat = _
    rw [Char.ofNat, dif_pos hvalid]
    show c.val.toNat - 32 = (c.val + ('A'.val - 'a'.val)).toNat
    -- adding the difference of the two letters wraps around
    have hshift : ('A'.val - 'a'.val).toNat = 4294967264 := by decide
    rw [UInt32.toNat_add, hshift]
    omega
  · have hval : ¬ ('a'.val ≤ c.val ∧ c.val ≤ 'z'.val) := h
    rw [if_neg h, dif_neg hval]

theorem ofWord?_eq_some_iff_toUpper {word : List Char} {method : Method} :
    ofWord? word = some method ↔ word.map Char.toUpper = method.name.toList := by
  rw [ofWord?_eq_some_iff, List.map_congr_left fun c _ => upperAscii_eq c]

/-- White space has no letter case. -/
theorem toUpper_of_isBlank {c : Char} (h : isBlank c = true) : c.toUpper = c := by
  have hpart := isNamePart_of_isBlank h
  by_contra hne
  have hlower : isLower c = true := by
    by_contra hlower
    apply hne
    rw [← upperAscii_eq, upperAscii, if_neg]
    intro hrange
    apply hlower
    rw [isLower, decide_eq_true hrange.1, decide_eq_true hrange.2]
    rfl
  rw [isNamePart, isNameStart, hlower] at hpart
  cases hpart

/-- A word that names a method is a word. -/
theorem isWord_of_map_toUpper {word : List Char} {method : Method}
    (h : word.map Char.toUpper = method.name.toList) : IsWord word where
  ne_nil := by
    rintro rfl
    cases method <;> cases h
  visible c hc := by
    by_contra hblank
    rw [Bool.not_eq_false] at hblank
    have hmem : c ∈ method.name.toList := by
      rw [← h, List.mem_map]
      exact ⟨c, hc, toUpper_of_isBlank hblank⟩
    have hletters : method.name.toList.all (!isBlank ·) = true := by
      cases method <;> decide
    have hvisible := List.all_eq_true.1 hletters c hmem
    rw [hblank] at hvisible
    cases hvisible

end Method

namespace Grammar

/-- A header has two words: the method, as it is written, and the path. -/
theorem EndpointHeaderText.words_eq {text path : List Char} {method : Method}
    (h : EndpointHeaderText text method path) :
    ∃ word, word.map Char.toUpper = method.name.toList ∧ Path.IsPathText path ∧
      words text = [word, path] := by
  obtain ⟨word, gap, hmethod, hne, hgap, hpath, rfl⟩ := h
  refine ⟨word, hmethod, hpath, ?_⟩
  have hends : EndsWord (gap ++ path) := by
    obtain ⟨c, tail, rfl⟩ := List.exists_cons_of_ne_nil hne
    intro d hd
    cases Option.mem_some.1 hd
    exact hgap c List.mem_cons_self
  have hpathWords : words (gap ++ path) = [path] := by
    have hend : EndsWord [] := nofun
    have hlast := words_append hgap hpath.isWord hend
    rwa [List.append_nil] at hlast
  have hfirst := words_append isBlankText_nil (Method.isWord_of_map_toUpper hmethod) hends
  rwa [hpathWords] at hfirst

end Grammar

namespace Endpoint

/-- A header is read exactly if it is a method and a path. -/
theorem readHeader_eq_ok_iff {number depth : Nat} {text : List Char} {endpoint : Endpoint}
    (htext : IsTrimmed text) :
    readHeader (.structural number depth text) = .ok endpoint ↔ ∃ method path,
      EndpointHeaderText text method path ∧
      endpoint = declaredEndpoint number method path none none := by
  unfold readHeader
  rw [Line.toList_structural_text]
  constructor
  · intro h
    split at h
    · cases h
    · rename_i word others hwords
      split at h
      · cases h
      · rename_i method hmethod
        split at h
        · rename_i path
          split at h
          · rename_i hpath
            cases h
            -- a trimmed text has no white space before its first and after its last word
            obtain ⟨before, rest, hbefore, hword, hrest, rfl, hothers⟩ := words_eq_cons_iff.1 hwords
            obtain ⟨gap, after, hgap, hpathWord, -, rfl, hafter⟩ := words_eq_cons_iff.1 hothers
            rw [words_eq_nil_iff] at hafter
            obtain rfl := htext.eq_nil_of_append_left hbefore
            rw [List.nil_append, ← List.append_assoc, ← List.append_assoc] at htext
            obtain rfl := htext.eq_nil_of_append_right hafter
            refine ⟨method, path, ⟨word, gap, Method.ofWord?_eq_some_iff_toUpper.1 hmethod, ?_,
              hgap, Path.isPath_iff.1 hpath, ?_⟩, rfl⟩
            -- without a gap the first word would go on into the path
            · rintro rfl
              obtain ⟨c, tail, rfl⟩ := List.exists_cons_of_ne_nil hpathWord.ne_nil
              have hvisible := hpathWord.visible c List.mem_cons_self
              rw [hrest c rfl] at hvisible
              cases hvisible
            · rw [List.nil_append, List.append_nil]
          · cases h
        · cases h
  · rintro ⟨method, path, hheader, rfl⟩
    obtain ⟨word, hmethod, hpath, hwords⟩ := hheader.words_eq
    rw [hwords]
    dsimp only
    rw [Method.ofWord?_eq_some_iff_toUpper.2 hmethod]
    dsimp only
    rw [if_pos (Path.isPath_iff.2 hpath)]
    rfl

/-! ### Bodies -/

theorem responseToken?_eq_some_iff {text token : List Char} :
    responseToken? text = some token ↔
      ∃ rest, text = '=' :: '>' :: rest ∧ trimStart rest = token := by
  constructor
  · intro h
    unfold responseToken? at h
    split at h
    · rename_i rest
      cases h
      exact ⟨rest, rfl, rfl⟩
    · cases h
  · rintro ⟨rest, rfl, rfl⟩
    rfl

theorem readType_eq_ok_iff {line : Line} {token : List Char} {type : TypeRef} :
    readType line token = .ok type ↔ TypeToken token type := by
  rw [← TypeRef.read_eq_ok_iff]
  unfold readType
  cases TypeRef.read token with
  | ok type' => exact Iff.intro (fun h => by cases h; rfl) (fun h => by cases h; rfl)
  | error problem => exact iff_of_false nofun nofun

theorem withResponse_eq (endpoint : Endpoint) (type : TypeRef) :
    endpoint.withResponse type =
      { endpoint with response := some type.responseItem, responseIsArray := type.isArray } := by
  cases type <;> rfl

/-- No type starts with an arrow. -/
theorem responseToken?_of_typeToken {token : List Char} {type : TypeRef}
    (h : TypeToken token type) : responseToken? token = none := by
  by_contra hsome
  obtain ⟨arrow, harrow⟩ := Option.ne_none_iff_exists'.1 hsome
  obtain ⟨rest, rfl, -⟩ := responseToken?_eq_some_iff.1 harrow
  cases h with
  | element h =>
    -- an element starts with a letter, and an array with a bracket
    obtain ⟨c, letters, heq, hc, -⟩ := h.isIdentifier
    cases heq
    revert hc
    decide

theorem readBody_of_response (endpoint : Endpoint) {line : Line} {token : List Char}
    (h : responseToken? line.text.toList = some token) :
    endpoint.readBody line =
      if endpoint.response.isSome then .error (line.fault .repeatedResponse)
      else (readType line token).map endpoint.withResponse := by
  unfold readBody
  rw [h]
  dsimp only
  cases endpoint.response with
  | some type => rfl
  | none => cases readType line token <;> rfl

theorem readBody_of_request (endpoint : Endpoint) {line : Line}
    (h : responseToken? line.text.toList = none) :
    endpoint.readBody line =
      if endpoint.request.isSome then .error (line.fault .repeatedRequest)
      else (readType line line.text.toList).map fun type =>
        { endpoint with request := some type } := by
  unfold readBody
  rw [h]
  dsimp only
  cases endpoint.request with
  | some type => rfl
  | none => cases readType line line.text.toList <;> rfl

/-- A slot that is empty is filled with a type that can be read. -/
theorem fill_eq_ok_iff {slot : Option TypeRef} {line : Line} {token : List Char}
    {problem : LineProblem} {f : TypeRef → Endpoint} {endpoint : Endpoint} :
    (if slot.isSome then .error (line.fault problem) else (readType line token).map f) =
        .ok endpoint ↔
      slot = none ∧ ∃ type, TypeToken token type ∧ endpoint = f type := by
  cases slot with
  | some type => exact iff_of_false nofun nofun
  | none =>
    rw [Option.isSome_none, if_neg Bool.false_ne_true]
    constructor
    · intro h
      obtain ⟨type, htype, rfl⟩ := Except.map_eq_ok_iff.1 h
      exact ⟨rfl, type, readType_eq_ok_iff.1 htype, rfl⟩
    · rintro ⟨-, type, htype, rfl⟩
      exact Except.map_eq_ok_iff.2 ⟨type, readType_eq_ok_iff.2 htype, rfl⟩

/-- A body line declares a response or a request, if the endpoint has none yet. -/
theorem readBody_eq_ok_iff {endpoint endpoint' : Endpoint} {line : Line} :
    endpoint.readBody line = .ok endpoint' ↔
      (endpoint.response = none ∧ ∃ type, ResponseText line.text.toList type ∧
        endpoint' = endpoint.withResponse type) ∨
      (endpoint.request = none ∧ ∃ type, TypeToken line.text.toList type ∧
        endpoint' = { endpoint with request := some type }) := by
  -- the arrow decides, since no type starts with one
  cases harrow : responseToken? line.text.toList with
  | some token =>
    obtain ⟨rest, htext, rfl⟩ := responseToken?_eq_some_iff.1 harrow
    have hresponse : ∀ type, ResponseText line.text.toList type ↔
        TypeToken (trimStart rest) type := by
      intro type
      rw [htext]
      constructor
      · rintro ⟨gap, token, hgap, htoken, heq⟩
        cases heq
        rwa [trimStart_append hgap, trimStart_eq_self htoken.isTrimmed.head]
      · intro htoken
        refine ⟨indentation rest, trimStart rest, isBlankText_indentation rest, htoken, ?_⟩
        rw [indentation_append_trimStart]
    have hrequest : ∀ type, ¬ TypeToken line.text.toList type := by
      intro type htype
      rw [responseToken?_of_typeToken htype] at harrow
      cases harrow
    rw [readBody_of_response endpoint harrow, fill_eq_ok_iff]
    constructor
    · rintro ⟨hnone, type, htype, rfl⟩
      exact Or.inl ⟨hnone, type, (hresponse type).2 htype, rfl⟩
    · rintro (⟨hnone, type, htype, rfl⟩ | ⟨-, type, htype, -⟩)
      · exact ⟨hnone, type, (hresponse type).1 htype, rfl⟩
      · exact absurd htype (hrequest type)
  | none =>
    have hresponse : ∀ type, ¬ ResponseText line.text.toList type := by
      rintro type ⟨gap, token, -, -, htext⟩
      rw [responseToken?_eq_some_iff.2 ⟨gap ++ token, htext, rfl⟩] at harrow
      cases harrow
    rw [readBody_of_request endpoint harrow, fill_eq_ok_iff]
    constructor
    · exact Or.inr
    · rintro (⟨-, type, htype, -⟩ | hbody)
      · exact absurd htype (hresponse type)
      · exact hbody

/-! ### One line -/

theorem readLine_of_nested (endpoints : List Endpoint) {line : Line} (h : 1 < line.depth) :
    readLine endpoints line = .error (line.fault .nestedLine) := by
  unfold readLine
  exact if_pos h

theorem readLine_of_header (endpoints : List Endpoint) {line : Line} (hdepth : line.depth ≤ 1)
    (hkind : line.kind = .header) :
    readLine endpoints line =
      match readHeader line with
      | .ok endpoint =>
        if endpoints.any endpoint.sameOperation then
          .error (.duplicateEndpoint endpoint.method endpoint.path)
        else .ok (endpoint :: endpoints)
      | .error fault => .error fault := by
  unfold readLine
  refine (if_neg (not_lt.2 hdepth)).trans ((if_pos hkind).trans ?_)
  cases readHeader line with
  | error fault => rfl
  | ok endpoint => rfl

theorem readLine_of_body (endpoints : List Endpoint) {line : Line} (hdepth : line.depth ≤ 1)
    (hkind : line.kind ≠ .header) :
    readLine endpoints line =
      match endpoints with
      | [] => .error (line.fault .bodyOutsideEndpoint)
      | endpoint :: earlier => (endpoint.readBody line).map (· :: earlier) := by
  unfold readLine
  refine (if_neg (not_lt.2 hdepth)).trans ((if_neg hkind).trans ?_)
  cases endpoints with
  | nil => rfl
  | cons endpoint earlier => cases endpoint.readBody line <;> rfl

theorem depth_le_of_readLine {endpoints endpoints' : List Endpoint} {line : Line}
    (h : readLine endpoints line = .ok endpoints') : line.depth ≤ 1 := by
  by_contra hdepth
  rw [readLine_of_nested endpoints (not_le.1 hdepth)] at h
  cases h

/-- The method and the path, which tell an endpoint from every other one. -/
def operation (endpoint : Endpoint) : Method × String :=
  (endpoint.method, endpoint.path)

theorem any_sameOperation_iff {endpoint : Endpoint} {endpoints : List Endpoint} :
    endpoints.any endpoint.sameOperation = true ↔
      endpoint.operation ∈ endpoints.map operation := by
  rw [List.any_eq_true, List.mem_map]
  refine exists_congr fun other => and_congr_right fun _ => ?_
  rw [sameOperation, Bool.and_eq_true, beq_iff_eq, beq_iff_eq, operation, operation, Prod.mk.injEq]
  exact and_congr eq_comm eq_comm

/-- **One line of an endpoints text**: a header starts an endpoint of a new operation, and a body
line fills a slot of the last endpoint. -/
theorem readLine_eq_ok_iff {endpoints endpoints' : List Endpoint} {number depth : Nat}
    {text : List Char} (htext : IsTrimmed text) :
    readLine endpoints (.structural number depth text) = .ok endpoints' ↔
      (depth = 0 ∧ ∃ method path, EndpointHeaderText text method path ∧
        (method, String.ofList path) ∉ endpoints.map operation ∧
        endpoints' = declaredEndpoint number method path none none :: endpoints) ∨
      (depth = 1 ∧ ∃ endpoint earlier endpoint', endpoints = endpoint :: earlier ∧
        endpoint.readBody (.structural number depth text) = .ok endpoint' ∧
        endpoints' = endpoint' :: earlier) := by
  have hkind : (Line.structural number depth text).kind = .header ↔ depth = 0 :=
    Line.structural_kind_eq_header_iff
  constructor
  · intro h
    have hdepth : depth ≤ 1 := depth_le_of_readLine h
    by_cases hzero : depth = 0
    · left
      rw [readLine_of_header endpoints hdepth (hkind.2 hzero)] at h
      refine ⟨hzero, ?_⟩
      split at h
      · rename_i endpoint hendpoint
        obtain ⟨method, path, hheader, rfl⟩ := (readHeader_eq_ok_iff htext).1 hendpoint
        split_ifs at h with hrepeated
        cases h
        rw [any_sameOperation_iff] at hrepeated
        exact ⟨method, path, hheader, hrepeated, rfl⟩
      · cases h
    · right
      rw [readLine_of_body endpoints hdepth (hkind.not.2 hzero)] at h
      refine ⟨by omega, ?_⟩
      cases endpoints with
      | nil => cases h
      | cons endpoint earlier =>
        obtain ⟨endpoint', hendpoint, rfl⟩ := Except.map_eq_ok_iff.1 h
        exact ⟨endpoint, earlier, endpoint', rfl, hendpoint, rfl⟩
  · rintro (⟨rfl, method, path, hheader, hnew, rfl⟩ |
      ⟨rfl, endpoint, earlier, endpoint', rfl, hendpoint, rfl⟩)
    · have hread : readHeader (.structural number 0 text) =
          .ok (declaredEndpoint number method path none none) :=
        (readHeader_eq_ok_iff htext).2 ⟨method, path, hheader, rfl⟩
      have hfresh : ¬ endpoints.any
          (declaredEndpoint number method path none none).sameOperation = true := by
        rwa [any_sameOperation_iff]
      rw [readLine_of_header endpoints (Nat.zero_le 1) (hkind.2 rfl), hread]
      exact if_neg hfresh
    · rw [readLine_of_body _ (le_refl 1) (hkind.not.2 Nat.one_ne_zero)]
      exact Except.map_eq_ok_iff.2 ⟨endpoint', hendpoint, rfl⟩

/-! ### Soundness -/

/-- A line that the last endpoint takes goes on with its body lines. -/
theorem readBody_sound {body : List NumberedLine} {request response : Option TypeRef}
    (hbody : BodyLines body request response) {number line : Nat} {method : Method}
    {path text raw : List Char} {endpoint' : Endpoint} (hraw : IsIndented 1 text raw)
    (hok : (declaredEndpoint line method path request response).readBody
      (.structural number 1 text) = .ok endpoint') :
    ∃ request' response', BodyLines (body ++ [(number, raw)]) request' response' ∧
      endpoint' = declaredEndpoint line method path request' response' := by
  rw [readBody_eq_ok_iff, Line.toList_structural_text] at hok
  rcases hok with ⟨hnone, type, htype, rfl⟩ | ⟨hnone, type, htype, rfl⟩
  · obtain rfl : response = none := Option.map_eq_none_iff.1 hnone
    refine ⟨request, some type, .response hbody ⟨text, hraw, htype⟩, ?_⟩
    rw [withResponse_eq]
    rfl
  · obtain rfl : request = none := hnone
    exact ⟨some type, response, .request hbody ⟨text, hraw, htype⟩, rfl⟩

end Endpoint

namespace Grammar

/-- A header line behind the lines of endpoints starts one more endpoint. -/
theorem EndpointsText.concat_header {lines : List NumberedLine} {endpoints : List Endpoint}
    (h : EndpointsText lines endpoints) {line : NumberedLine} {method : Method} {path : List Char}
    (hline : IsEndpointHeader line method path) :
    EndpointsText (lines ++ [line])
      (endpoints ++ [declaredEndpoint line.1 method path none none]) := by
  induction h with
  | nil =>
    show EndpointsText (line :: ([] ++ [])) _
    exact .endpoint hline .nil .nil
  | endpoint hheader hbody hrest ih =>
    rw [List.cons_append, List.append_assoc]
    exact .endpoint hheader hbody ih

/-- A body line behind the lines of endpoints belongs to the last endpoint. -/
theorem EndpointsText.concat_body {lines : List NumberedLine} {endpoints : List Endpoint}
    {endpoint endpoint' : Endpoint} (h : EndpointsText lines (endpoints ++ [endpoint]))
    {number : Nat} {text raw : List Char} (hraw : IsIndented 1 text raw)
    (hok : endpoint.readBody (.structural number 1 text) = .ok endpoint') :
    EndpointsText (lines ++ [(number, raw)]) (endpoints ++ [endpoint']) := by
  induction endpoints generalizing lines with
  | nil =>
    cases h with
    | endpoint hheader hbody hrest =>
      -- nothing follows the last endpoint, so the line goes to the end of its body
      cases hrest
      obtain ⟨request, response, hbody', rfl⟩ := Endpoint.readBody_sound hbody hraw hok
      rw [List.append_nil, List.cons_append, ← List.append_nil (_ ++ [(number, raw)])]
      exact .endpoint hheader hbody' .nil
  | cons first endpoints ih =>
    cases h with
    | endpoint hheader hbody hrest =>
      rw [List.cons_append, List.append_assoc]
      exact .endpoint hheader hbody (ih hrest)

end Grammar

namespace Endpoint

/-- The invariant of reading: the lines read so far are of the grammar and declare the endpoints,
last one first, and no operation was met twice. -/
structure HasRead (lines : List NumberedLine) (endpoints : List Endpoint) : Prop where
  /-- The lines declare the endpoints. -/
  grammar : EndpointsText lines endpoints.reverse
  /-- No operation was met twice. -/
  distinct : (endpoints.map operation).Nodup

/-- A body line changes no operation. -/
theorem operation_of_readBody {endpoint endpoint' : Endpoint} {line : Line}
    (h : endpoint.readBody line = .ok endpoint') : endpoint'.operation = endpoint.operation := by
  rcases readBody_eq_ok_iff.1 h with ⟨-, type, -, rfl⟩ | ⟨-, type, -, rfl⟩
  · rw [withResponse_eq]
    rfl
  · rfl

/-- One line keeps the invariant. -/
theorem readLine_sound {lines : List NumberedLine} {endpoints endpoints' : List Endpoint}
    {number depth : Nat} {text raw : List Char} (h : HasRead lines endpoints)
    (hraw : IsIndented depth text raw)
    (hok : readLine endpoints (.structural number depth text) = .ok endpoints') :
    HasRead (lines ++ [(number, raw)]) endpoints' := by
  rcases (readLine_eq_ok_iff hraw.trimmed).1 hok with
    ⟨rfl, method, path, hheader, hnew, rfl⟩ | ⟨rfl, endpoint, earlier, endpoint', rfl, hbody, rfl⟩
  · refine ⟨?_, List.nodup_cons.2 ⟨hnew, h.distinct⟩⟩
    rw [List.reverse_cons]
    exact h.grammar.concat_header ⟨text, hraw, hheader⟩
  · have hgrammar := h.grammar
    have hdistinct := h.distinct
    refine ⟨?_, ?_⟩
    · rw [List.reverse_cons] at hgrammar ⊢
      exact hgrammar.concat_body hraw hbody
    · rw [List.map_cons] at hdistinct ⊢
      rwa [operation_of_readBody hbody]

/-- **Soundness**: lines that are read without a fault are of the grammar. -/
theorem hasRead_of_reads {lines : List NumberedLine} {endpoints : List Endpoint}
    (h : Reads readLine [] lines endpoints) : HasRead lines endpoints :=
  h.preserves (fun _ _ _ _ _ _ _ hread hraw hok => readLine_sound hread hraw hok) []
    ⟨.nil, List.nodup_nil⟩

end Endpoint

/-! ### Completeness -/

namespace Grammar

/-- The reader takes the body lines of the last endpoint. -/
theorem reads_bodyLines {body : List NumberedLine} {request response : Option TypeRef}
    (h : BodyLines body request response) (number : Nat) (method : Method) (path : List Char)
    (earlier : List Endpoint) :
    Reads Endpoint.readLine (declaredEndpoint number method path none none :: earlier) body
      (declaredEndpoint number method path request response :: earlier) := by
  induction h with
  | nil => exact .nil
  | @request lines line type response hlines hline ih =>
    obtain ⟨text, hraw, htype⟩ := hline
    refine ih.append (.cons hraw ?_ .nil)
    refine (Endpoint.readLine_eq_ok_iff hraw.trimmed).2 (Or.inr ⟨rfl, _, earlier, _, rfl, ?_, rfl⟩)
    refine Endpoint.readBody_eq_ok_iff.2 (Or.inr ⟨rfl, type, ?_, rfl⟩)
    rwa [Line.toList_structural_text]
  | @response lines line type request hlines hline ih =>
    obtain ⟨text, hraw, htype⟩ := hline
    refine ih.append (.cons hraw ?_ .nil)
    refine (Endpoint.readLine_eq_ok_iff hraw.trimmed).2 (Or.inr ⟨rfl, _, earlier, _, rfl, ?_, rfl⟩)
    refine Endpoint.readBody_eq_ok_iff.2 (Or.inl ⟨rfl, type, ?_, ?_⟩)
    · rwa [Line.toList_structural_text]
    · rw [Endpoint.withResponse_eq]
      rfl

/-- **Completeness**: lines of the grammar are read, behind endpoints of other operations. -/
theorem EndpointsText.reads {lines : List NumberedLine} {endpoints : List Endpoint}
    (h : EndpointsText lines endpoints) (earlier : List Endpoint)
    (hdistinct : ((endpoints.reverse ++ earlier).map Endpoint.operation).Nodup) :
    Reads Endpoint.readLine earlier lines (endpoints.reverse ++ earlier) := by
  induction h generalizing earlier with
  | nil => exact .nil
  | @endpoint header body rest method path request response endpoints hheader hbody hrest ih =>
    obtain ⟨text, hraw, hname⟩ := hheader
    -- the endpoints that follow are read behind this one, which is then an earlier one
    rw [List.reverse_cons, List.append_assoc, List.singleton_append] at hdistinct ⊢
    have hnew : (method, String.ofList path) ∉ earlier.map Endpoint.operation := by
      have hnodup := hdistinct
      rw [List.map_append, List.map_cons] at hnodup
      exact (List.nodup_cons.1 hnodup.of_append_right).1
    have hstep : Endpoint.readLine earlier (.structural header.1 0 text) =
        .ok (declaredEndpoint header.1 method path none none :: earlier) :=
      (Endpoint.readLine_eq_ok_iff hraw.trimmed).2
        (Or.inl ⟨rfl, method, path, hname, hnew, rfl⟩)
    refine .cons hraw hstep ?_
    exact (reads_bodyLines hbody header.1 method path earlier).append (ih _ hdistinct)

end Grammar

namespace Endpoint

/-- The endpoints of a text are what reading its structural lines one by one gives. -/
theorem readAll_eq_ok_iff_reads {text : String} {endpoints : List Endpoint} :
    readAll text = .ok endpoints ↔
      ∃ lines, HasLines text lines ∧ Reads readLine [] lines endpoints.reverse :=
  reverse_foldlM_tokenize_eq_ok_iff (fun _ _ _ => depth_le_of_readLine) text endpoints

/-- **The endpoints texts that are accepted, and their endpoints**: the lines of the text that are
neither blank nor comments are headers, each with its body lines; no two endpoints share both
method and path; the endpoints stand in order. -/
theorem readAll_eq_ok_iff_endpointsText (text : String) (endpoints : List Endpoint) :
    readAll text = .ok endpoints ↔
      ∃ lines, HasLines text lines ∧ EndpointsText lines endpoints ∧
        (endpoints.map fun endpoint => (endpoint.method, endpoint.path)).Nodup := by
  rw [readAll_eq_ok_iff_reads]
  refine exists_congr fun lines => and_congr_right fun _ => ?_
  constructor
  · intro hreads
    have hread := hasRead_of_reads hreads
    have hgrammar := hread.grammar
    have hdistinct := hread.distinct
    rw [List.reverse_reverse] at hgrammar
    rw [List.map_reverse, List.nodup_reverse] at hdistinct
    exact ⟨hgrammar, hdistinct⟩
  · rintro ⟨hgrammar, hdistinct⟩
    rw [← List.append_nil endpoints.reverse]
    apply hgrammar.reads
    rw [List.append_nil, List.map_reverse, List.nodup_reverse]
    exact hdistinct

/-- The response may stand before the request. -/
example : readAll "Put /a/{b}%2F\n  => [User]\n\n  string" = .ok
    [{ method := .put, path := "/a/{b}%2F", line := 1, request := some (.scalar .string),
       response := some (.model "User"), responseIsArray := true }] := by
  decide +kernel

end Endpoint

end ApiShorthand
