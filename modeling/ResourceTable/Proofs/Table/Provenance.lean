import ResourceTable.Proofs.Table.Conversion

namespace ResourceTable

theorem Row.shows_rightUnique :
    Relator.RightUnique fun (o : Object) (r : Row Embedded) => r.Shows o := by
  intro o r r' h h'
  obtain ⟨info, hinfo, rfl⟩ := h
  obtain ⟨info', hinfo', rfl⟩ := h'
  rw [hinfo] at hinfo'
  cases hinfo'
  rfl

def Table.info {ε : Type} (t : Table ε) : ListInfo :=
  ⟨⟨t.resourceVersion, t.selfLink⟩, t.continueToken, t.remaining⟩

namespace Convertor

variable {ι : Type} [DecidableEq ι] [Hashable ι] {β : ι → Type}
variable {κ : Type} [DecidableEq κ] [Hashable κ] {γ : κ → Type}
variable {c c' : Convertor} {ctx : Context β} {ctx' : Context γ} {o : Object}
variable {options options' : Option TableOptions} {t t' : Table Embedded}

theorem eq_with_columns (h : c.convert ctx o options = .ok t)
    (h' : c'.convert ctx' o options' = .ok t') :
    t' = { t with columns := columns options' } := by
  obtain ⟨hrows, hframe⟩ := convert_eq_ok_iff.1 h
  obtain ⟨hrows', hframe'⟩ := convert_eq_ok_iff.1 h'
  have hsame : t.rows = t'.rows :=
    List.right_unique_forall₂' Row.shows_rightUnique hrows hrows'
  calc t' = { frame o with columns := columns options', rows := t'.rows } := hframe'
    _ = { frame o with columns := columns options', rows := t.rows } := by rw [hsame]
    _ = { t with columns := columns options' } := by rw [hframe]

theorem columns_eq_iff : columns options = columns options' ↔
    (options = some .withoutHeaders ↔ options' = some .withoutHeaders) := by
  rw [columns_eq, columns_eq]
  by_cases h : options = some .withoutHeaders
  · by_cases h' : options' = some .withoutHeaders
    · simp [h, h']
    · simp [h, h']
  · by_cases h' : options' = some .withoutHeaders
    · simp [h, h']
    · simp [h, h']

theorem resource_eq {request : RequestInfo} (h : ctx.request? = some request) :
    c.resource ctx = ⟨request.apiGroup, request.resource⟩ := by
  rw [resource, h]
  rfl

/-- Convertor, context and options have no say in the rows and the metadata: two tables of one
object differ in their columns at most, two errors in the resource at most. -/
theorem conversions_agree (c c' : Convertor) (ctx : Context β) (ctx' : Context γ) (o : Object)
    (options options' : Option TableOptions) :
    ((∃ t, c.convert ctx o options = .ok t) ↔ ∃ t', c'.convert ctx' o options' = .ok t') ∧
    (∀ t t', c.convert ctx o options = .ok t → c'.convert ctx' o options' = .ok t' →
      t' = { t with columns := t'.columns } ∧
        (t.columns = t'.columns ↔
          (options = some .withoutHeaders ↔ options' = some .withoutHeaders))) ∧
    ∀ e e', c.convert ctx o options = .error e → c'.convert ctx' o options' = .error e' →
      (∃ r r', e = .notAcceptable r ∧ e' = .notAcceptable r') ∧
        ∀ request request', ctx.request? = some request → ctx'.request? = some request' →
          request.apiGroup = request'.apiGroup → request.resource = request'.resource →
            e = e' := by
  refine ⟨convert_isOk_iff.trans convert_isOk_iff.symm, fun t t' h h' => ?_, fun e e' h h' => ?_⟩
  · have hcolumns : t.columns = columns options := by rw [(convert_eq_ok_iff.1 h).2]
    have hcolumns' : t'.columns = columns options' := by rw [(convert_eq_ok_iff.1 h').2]
    rw [hcolumns, hcolumns']
    exact ⟨eq_with_columns h h', columns_eq_iff⟩
  · rw [(convert_eq_error h).2, (convert_eq_error h').2]
    refine ⟨⟨_, _, rfl, rfl⟩, fun request request' hknown hknown' hgroup hresource => ?_⟩
    rw [resource_eq hknown, resource_eq hknown', hgroup, hresource]

/-- An object without metadata under two contexts, which know two requests for one resource: the
errors are the same.  And an object with metadata, with headers and without: the tables are not. -/
theorem conversions_agree_requests :
    let widgets : RequestInfo := .ofResource "apps" "widgets"
    let ctx : Context fun _ : Unit => String :=
      Context.empty.store .request (widgets.withVerb "get")
    let ctx' : Context fun _ : Bool => Nat :=
      (Context.empty.store .request (widgets.withVerb "list")).store (.extension true) 7
    let pods : Convertor := ⟨⟨"", "pods"⟩⟩
    let nodes : Convertor := ⟨⟨"", "nodes"⟩⟩
    let o : Object := ⟨some ⟨⟨"1", ""⟩, "a", "", none⟩, none, none, .ok .null⟩
    (∃ e, pods.convert ctx (.ofJson .null) none = .error e ∧
      nodes.convert ctx' (.ofJson .null) (some .withoutHeaders) = .error e) ∧
    ∃ t t', pods.convert ctx o none = .ok t ∧
      nodes.convert ctx' o (some .withoutHeaders) = .ok t' ∧
        t' = { t with columns := t'.columns } ∧ t.columns ≠ t'.columns := by
  intro widgets ctx ctx' pods nodes o
  obtain ⟨-, -, herrors⟩ :=
    conversions_agree pods nodes ctx ctx' (.ofJson .null) none (some .withoutHeaders)
  obtain ⟨hsame, htables, -⟩ := conversions_agree pods nodes ctx ctx' o none (some .withoutHeaders)
  have hrequest : ctx.request? = some (widgets.withVerb "get") := by
    simp [ctx, Context.request?, Context.get?, Context.store]
  have hrequest' : ctx'.request? = some (widgets.withVerb "list") := by
    simp [ctx', Context.request?, Context.get?, Context.store, Std.DHashMap.get?_insert]
  have he := (herrors _ _ rfl rfl).2 _ _ hrequest hrequest' rfl rfl
  obtain ⟨t', ht'⟩ := hsame.1 ⟨_, rfl⟩
  obtain ⟨hmost, hcolumns⟩ := htables _ _ rfl ht'
  exact ⟨⟨_, rfl, congrArg Except.error he.symm⟩, _, t', rfl, ht', hmost,
    hcolumns.not.2 (by decide)⟩

/-- The metadata of a frame: that of the collection, or else what there is in common, or none. -/
theorem info_frame (o : Object) :
    (frame o).info = match o.listInfo?, o.objectInfo? with
      | some l, _ => l
      | none, some i => ⟨i.toCommonInfo, "", none⟩
      | none, none => ⟨⟨"", ""⟩, "", none⟩ := by
  -- collection metadata is asked for first, and once more behind what there is in common
  unfold frame Object.listInfo Object.commonInfo
  rcases o.listInfo? with _ | l
  · rcases o.objectInfo? with _ | i
    · rfl
    · rfl
  · rfl

theorem info_of_convert (h : c.convert ctx o options = .ok t) : t.info = (frame o).info := by
  rw [(convert_eq_ok_iff.1 h).2]
  rfl

theorem exists_objectInfo (h : c.convert ctx o options = .ok t)
    (hsingle : o.isCollection = false) : ∃ i, o.objectInfo? = some i := by
  have hitems : o.items? = none := by simpa [Object.isCollection] using hsingle
  have helements : o.elements = [o] := by rw [Object.elements, hitems, Option.getD_none]
  apply Option.ne_none_iff_exists'.1
  apply convert_isOk_iff.1 ⟨t, h⟩
  rw [helements]
  exact List.mem_cons_self

/-- A collection hands on its collection metadata, or else what its object metadata has in common
with it.  Any other object hands on what is in common, and the rest of what it shows of a collection. -/
theorem metadata_of_convert (h : c.convert ctx o options = .ok t) :
    (o.isCollection = true →
      (∀ l, o.listInfo? = some l → t.info = l) ∧
      (∀ i, o.listInfo? = none → o.objectInfo? = some i →
        t.info = ⟨⟨i.resourceVersion, i.selfLink⟩, "", none⟩) ∧
      (o.listInfo? = none → o.objectInfo? = none → t.info = ⟨⟨"", ""⟩, "", none⟩)) ∧
    (o.isCollection = false →
      (∃ i, o.commonInfo = .ok i ∧ t.resourceVersion = i.resourceVersion ∧
        t.selfLink = i.selfLink) ∧
      (∀ l, o.listInfo? = some l → t.continueToken = l.continueToken ∧ t.remaining = l.remaining) ∧
      (o.listInfo? = none → t.continueToken = "" ∧ t.remaining = none)) := by
  have hinfo := (info_of_convert h).trans (info_frame o)
  constructor
  · intro _
    refine ⟨fun l hl => ?_, fun i hl hi => ?_, fun hl hi => ?_⟩
    · rw [hinfo, hl]
    · rw [hinfo, hl, hi]
    · rw [hinfo, hl, hi]
  · intro hsingle
    obtain ⟨i, hi⟩ := exists_objectInfo h hsingle
    cases hl : o.listInfo? with
    | some l =>
      rw [hl] at hinfo
      have hcommon : o.commonInfo = .ok l.toCommonInfo := by rw [Object.commonInfo, hl]
      cases hinfo
      refine ⟨⟨_, hcommon, rfl, rfl⟩, ?_, nofun⟩
      rintro _ ⟨⟩
      exact ⟨rfl, rfl⟩
    | none =>
      rw [hl, hi] at hinfo
      have hcommon : o.commonInfo = .ok i.toCommonInfo := by rw [Object.commonInfo, hl, hi]
      refine ⟨⟨_, hcommon, ?_, ?_⟩, nofun, fun _ => ⟨?_, ?_⟩⟩
      · exact congrArg (fun i => i.resourceVersion) hinfo
      · exact congrArg (fun i => i.selfLink) hinfo
      · exact congrArg ListInfo.continueToken hinfo
      · exact congrArg ListInfo.remaining hinfo

/-- A collection that shows object metadata only, and an object that is no collection but shows
metadata of both kinds. -/
theorem metadata_of_convert_both :
    let pod : Object := ⟨some ⟨⟨"1", "/a"⟩, "a", "", none⟩, none, none, .ok .null⟩
    let annotated : Object := ⟨some ⟨⟨"9", "/l"⟩, "l", "", none⟩, none, some [pod], .ok .null⟩
    let both : Object :=
      ⟨some ⟨⟨"1", "/a"⟩, "a", "", none⟩, some ⟨⟨"7", "/b"⟩, "next", some 3⟩, none, .ok .null⟩
    let conv : Convertor := ⟨⟨"", "pods"⟩⟩
    let ctx : Context fun _ : Unit => String := .empty
    ∃ t t', conv.convert ctx annotated none = .ok t ∧ t.info = ⟨⟨"9", "/l"⟩, "", none⟩ ∧
      conv.convert ctx both none = .ok t' ∧ t'.resourceVersion = "7" ∧ t'.selfLink = "/b" ∧
        t'.continueToken = "next" ∧ t'.remaining = some 3 := by
  intro pod annotated both conv ctx
  have h : ∃ t, conv.convert ctx annotated none = .ok t := ⟨_, rfl⟩
  have h' : ∃ t, conv.convert ctx both none = .ok t := ⟨_, rfl⟩
  obtain ⟨t, ht⟩ := h
  obtain ⟨t', ht'⟩ := h'
  have hinfo := ((metadata_of_convert ht).1 rfl).2.1 _ rfl rfl
  obtain ⟨⟨_, ⟨⟩, hversion, hlink⟩, hrest, -⟩ := (metadata_of_convert ht').2 rfl
  obtain ⟨hcontinue, hremaining⟩ := hrest _ rfl
  exact ⟨t, t', ht, hinfo, ht', hversion, hlink, hcontinue, hremaining⟩

/-- An object that is no collection may have a token and a count in its table. -/
theorem token_of_single :
    let o : Object :=
      ⟨some ⟨⟨"1", ""⟩, "a", "", none⟩, some ⟨⟨"7", ""⟩, "next", some 3⟩, none, .ok .null⟩
    let conv : Convertor := ⟨⟨"", "pods"⟩⟩
    let ctx : Context fun _ : Unit => String := .empty
    ∃ t, conv.convert ctx o none = .ok t ∧ o.isCollection = false ∧
      ¬ (t.continueToken = "" ∧ t.remaining = none) :=
  ⟨_, rfl, rfl, by decide⟩

end Convertor

end ResourceTable
