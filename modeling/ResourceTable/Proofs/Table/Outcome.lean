import ResourceTable.Proofs.Request.Lineage
import ResourceTable.Proofs.Time.Relaxed
import ResourceTable.Proofs.Time.Stamp

namespace ResourceTable

/-- An unknown time is shown as the first second of the year 1, any other as a text that is read as
its second, and that is a stamp where the year has four digits. -/
inductive CreatedText : Option Time.Instant → String → Prop where
  | unknown : CreatedText none "0001-01-01T00:00:00Z"
  | known {t : Time.Instant} {cell : String}
      (reads : Time.Relaxed.instant cell = .ok t.truncate.regular)
      (stamp : Time.IsStamp cell ↔ 0 ≤ t.year ∧ t.year ≤ 9999) : CreatedText (some t) cell

theorem createdText_createdCell (created : Option Time.Instant) :
    CreatedText created (createdCell created) := by
  cases created with
  | none => exact .unknown
  | some t =>
    have hreads : Time.Relaxed.instant t.wholeSeconds = .ok t.truncate.regular := by
      rw [← t.text_truncate]
      exact Time.Relaxed.instant_text t.truncate
    exact .known hreads t.isStamp_wholeSeconds

/-- The row of an element with metadata. -/
def Row.Renders (r : Row Embedded) (e : Object) : Prop :=
  ∃ info cell, e.objectInfo? = some info ∧ CreatedText info.created cell ∧
    r.cells = [.str info.name, .str cell] ∧ r.conditions = [] ∧ r.object = .live e

theorem Row.Shows.renders {r : Row Embedded} {e : Object} (h : r.Shows e) : r.Renders e := by
  obtain ⟨info, hinfo, rfl⟩ := h
  exact ⟨info, _, hinfo, createdText_createdCell info.created, rfl, rfl, rfl⟩

def headers : List Column :=
  [⟨"Name", "string", "name",
      "Name must be unique within a namespace. Is required when creating resources, " ++
      "although some resources may allow a client to request the generation of an " ++
      "appropriate name automatically. Name is primarily intended for creation idempotence " ++
      "and configuration definition. Cannot be updated. More info: " ++
      "https://kubernetes.io/docs/concepts/overview/working-with-objects/names#names", 0⟩,
    ⟨"Created At", "date", "",
      "CreationTimestamp is a timestamp representing the server time when this object was " ++
      "created. It is not guaranteed to be set in happens-before order across separate " ++
      "operations. Clients may not set this value. It is represented in RFC3339 form and " ++
      "is in UTC.\n\nPopulated by the system. Read-only. Null for lists.", 0⟩]

theorem columns_generic : Column.generic = headers := rfl

namespace Convertor

variable {ι : Type} [DecidableEq ι] [Hashable ι] {β : ι → Type}

/-- When a conversion succeeds and with which rows, of the items of a collection or of the object
alone; its columns; and the resource that its error names. -/
theorem convert_characterised (c : Convertor) (ctx : Context β) (o : Object)
    (options : Option TableOptions) :
    (∀ items, o.items? = some items →
      ((∃ t, c.convert ctx o options = .ok t) ↔ ∀ e ∈ items, e.objectInfo? ≠ none) ∧
        ∀ t, c.convert ctx o options = .ok t →
          List.Forall₂ (fun e r => r.Renders e) items t.rows) ∧
      (o.items? = none →
        ((∃ t, c.convert ctx o options = .ok t) ↔ o.objectInfo? ≠ none) ∧
          ∀ t, c.convert ctx o options = .ok t → ∃ r, t.rows = [r] ∧ r.Renders o) ∧
      (∀ t, c.convert ctx o options = .ok t →
        t.columns = if options = some ⟨true⟩ then [] else headers) ∧
      (∀ e, c.convert ctx o options = .error e →
        e = .notAcceptable (match ctx.values.get? .request with
          | some request => ⟨request.apiGroup, request.resource⟩
          | none => c.defaultResource)) ∧
      ∀ others : List (Context.Entry β), (∀ x ∈ others, x.1 ≠ .request) →
        (∀ request e,
          c.convert ((ctx.store .request request).extend others) o options = .error e →
            e = .notAcceptable ⟨request.apiGroup, request.resource⟩) ∧
        ∀ e, c.convert (Context.empty.extend others) o options = .error e →
          e = .notAcceptable c.defaultResource := by
  refine ⟨fun items hitems => ?_, fun hitems => ?_, fun t ht => ?_, fun e he => ?_,
    fun others hothers => ⟨fun request e he => ?_, fun e he => ?_⟩⟩
  · have helements : o.elements = items := by rw [Object.elements, hitems, Option.getD_some]
    refine ⟨helements ▸ convert_isOk_iff, fun t ht => ?_⟩
    rw [← helements]
    exact (convert_eq_ok_iff.1 ht).1.imp fun _ _ => Row.Shows.renders
  · have helements : o.elements = [o] := by rw [Object.elements, hitems, Option.getD_none]
    refine ⟨?_, fun t ht => ?_⟩
    · rw [convert_isOk_iff, helements, List.forall_mem_singleton]
    · obtain ⟨hrows, -⟩ := convert_eq_ok_iff.1 ht
      rw [helements] at hrows
      obtain ⟨r, rest, hr, hrest, hrows⟩ := List.forall₂_cons_left_iff.1 hrows
      cases hrest
      exact ⟨r, hrows, hr.renders⟩
  · rw [(convert_eq_ok_iff.1 ht).2, ← columns_generic]
    rcases options with _ | ⟨_ | _⟩ <;> rfl
  · rw [(convert_eq_error he).2, resource, Context.request?, Context.get?]
    cases ctx.values.get? .request <;> rfl
  · have hrequest : ((ctx.store .request request).extend others).request? = some request := by
      rw [Context.request?_extend hothers, Context.request?, Context.get?_store, dif_pos rfl]
      rfl
    rw [(convert_eq_error he).2, resource, hrequest]
    rfl
  · have hrequest : (Context.empty.extend others : Context β).request? = none := by
      rw [Context.request?_extend hothers]
      exact Std.DHashMap.get?_empty
    rw [(convert_eq_error he).2, resource, hrequest]

theorem convert_characterised_shapes :
    let created : Time.Instant := ⟨1709391845, false, 750000000, by decide, by decide, by decide⟩
    let item : Object := ⟨some ⟨⟨"1", ""⟩, "a", "", some created⟩, none, none, .ok .null⟩
    let nested : Object :=
      ⟨some ⟨⟨"2", ""⟩, "b", "", none⟩, none, some [item, .ofJson .null], .ok .null⟩
    let list : Object := ⟨none, none, some [item, nested], .ok .null⟩
    let pods : Convertor := ⟨⟨"", "pods"⟩⟩
    let empty : Context fun _ : Unit => String := .empty
    let known := (empty.store .request (.ofResource "apps" "deployments")).extend
      [⟨.extension (), "x"⟩]
    (∃ t r r' cell, pods.convert known list none = .ok t ∧ t.rows = [r, r'] ∧
      t.columns = headers ∧ r.cells = [.str "a", .str cell] ∧ Time.IsStamp cell ∧
      Time.Relaxed.instant cell = .ok created.truncate ∧ r.object = .live item ∧
      r'.cells = [.str "b", .str "0001-01-01T00:00:00Z"] ∧ r'.object = .live nested) ∧
    (∃ t r, pods.convert known item (some ⟨true⟩) = .ok t ∧ t.rows = [r] ∧ t.columns = [] ∧
      r.object = .live item) ∧
    pods.convert known nested none = .error (.notAcceptable ⟨"apps", "deployments"⟩) ∧
    pods.convert empty nested none = .error (.notAcceptable ⟨"", "pods"⟩) := by
  intro created item nested list pods empty known
  obtain ⟨hlist, -, hcolumns, -, -⟩ := convert_characterised pods known list none
  obtain ⟨hsucceeds, hrows⟩ := hlist [item, nested] rfl
  obtain ⟨t, ht⟩ := hsucceeds.2 (by simp [item, nested])
  obtain ⟨-, hsingle, hcolumns', -, -⟩ := convert_characterised pods known item (some ⟨true⟩)
  obtain ⟨hsucceeds', hrow⟩ := hsingle rfl
  obtain ⟨t', ht'⟩ := hsucceeds'.2 nofun
  obtain ⟨r₀, hr₀, _, _, -, -, -, -, hobject₀⟩ := hrow t' ht'
  -- the metadata of the collection itself does not count: an item without any makes it fail
  have hfails : ∀ ctx : Context fun _ : Unit => String,
      ∃ e, pods.convert ctx nested none = .error e := by
    intro ctx
    obtain ⟨hnested, -⟩ := convert_characterised pods ctx nested none
    cases hconvert : pods.convert ctx nested none with
    | error e => exact ⟨e, rfl⟩
    | ok t => exact absurd rfl ((hnested _ rfl).1.1 ⟨t, hconvert⟩ (.ofJson .null) (by simp))
  obtain ⟨-, -, -, -, hlabel⟩ := convert_characterised pods empty nested none
  obtain ⟨e, he⟩ := hfails known
  obtain ⟨e', he'⟩ := hfails empty
  have hstored := (hlabel [⟨.extension (), "x"⟩] (by simp)).1 _ e he
  have hnone := (hlabel [] nofun).2 e' he'
  refine ⟨?_, ⟨t', r₀, ht', hr₀, hcolumns' t' ht', hobject₀⟩, hstored ▸ he, hnone ▸ he'⟩
  have hlistRows := hrows t ht
  generalize hall : t.rows = rows at hlistRows
  rcases hlistRows with _ | ⟨⟨_, cell, ⟨⟩, hcell, hcells, -, hobject⟩, _ | ⟨hnested, ⟨⟩⟩⟩
  obtain ⟨_, cell', ⟨⟩, hcell', hcells', -, hobject'⟩ := hnested
  cases hcell'
  cases hcell with
  | known reads stamp =>
    exact ⟨t, _, _, cell, ht, hall, hcolumns t ht, hcells, stamp.2 (by decide +kernel), reads,
      hobject, hcells', hobject'⟩

end Convertor

end ResourceTable
