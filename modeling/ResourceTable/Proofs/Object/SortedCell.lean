import ResourceTable.Proofs.Object.CreatedCell
import ResourceTable.Proofs.Time.Order
import ResourceTable.Proofs.Wire.Records

namespace ResourceTable

open Time Text

def Object.created? (o : Object) : Option Instant := o.objectInfo?.bind ObjectInfo.created

theorem Object.created?_eq_some_iff {o : Object} {s : Instant} :
    o.created? = some s ↔ ∃ info, o.objectInfo? = some info ∧ info.created = some s :=
  Option.bind_eq_some_iff

/-- The second cells of two rows, compared byte by byte, are in the order of two times in whole
seconds; they are the same for the same second alone. -/
def Row.SortsAs (r r' : Row Embedded) (s s' : Instant) : Prop :=
  ∃ cell cell', r.cells[1]? = some (.str cell) ∧ r'.cells[1]? = some (.str cell') ∧
    compare (bytes cell) (bytes cell') = compare s.truncate s'.truncate ∧
    (cell = cell' ↔ s.truncate = s'.truncate)

theorem Row.Shows.cell_eq {r : Row Embedded} {o : Object} {s : Instant} (h : r.Shows o)
    (hs : o.created? = some s) : r.cells[1]? = some (.str s.wholeSeconds) := by
  obtain ⟨info, hinfo, rfl⟩ := h
  obtain ⟨info', hinfo', hcreated⟩ := Object.created?_eq_some_iff.1 hs
  rw [hinfo, Option.some.injEq] at hinfo'
  subst hinfo'
  show some (Json.str (createdCell info.created)) = _
  rw [hcreated]
  rfl

theorem Row.Shows.sortsAs {r r' : Row Embedded} {o o' : Object} {s s' : Instant} (h : r.Shows o)
    (h' : r'.Shows o') (hs : o.created? = some s) (hs' : o'.created? = some s')
    (hyear : s.hasPlainYear = true) (hyear' : s'.hasPlainYear = true) (hregular : s.IsRegular)
    (hregular' : s'.IsRegular) : r.SortsAs r' s s' := by
  rw [Instant.hasPlainYear_iff] at hyear hyear'
  exact ⟨_, _, h.cell_eq hs, h'.cell_eq hs',
    Instant.compare_wholeSeconds hregular hregular' hyear hyear',
    Instant.wholeSeconds_eq_iff hregular hregular' hyear⟩

namespace Convertor

variable {ι : Type} [DecidableEq ι] [Hashable ι] {β : ι → Type}
variable {κ : Type} [DecidableEq κ] [Hashable κ] {γ : κ → Type}

/-- Cells sort as time, where the years have four digits and leap seconds end a minute; in all times
that are read they do. -/
theorem sorted_cells (c c' : Convertor) (ctx : Context β) (ctx' : Context γ)
    (options options' : Option TableOptions) :
    (∀ x : Object, x.created? ≠ none → x.items? = none →
      ∃ t, c.convert ctx x options = .ok t) ∧
    (∀ o o' t t', c.convert ctx o options = .ok t → c'.convert ctx' o' options' = .ok t' →
      List.Forall₂ (fun e r => List.Forall₂ (fun e' r' => ∀ s s',
        e.created? = some s → e'.created? = some s' → s.hasPlainYear → s'.hasPlainYear →
          s.IsRegular → s'.IsRegular → r.SortsAs r' s s') o'.elements t'.rows)
        o.elements t.rows) ∧
    (∀ s s' : Instant, s.leap = true → s'.leap = false →
      if s'.second ≤ s.second then s'.truncate < s.truncate else s.truncate < s'.truncate) ∧
    (∀ v s, Codec.instant.decode v = .ok s → s.IsRegular) ∧
    ∀ text s, Strict.instant? text = some s → s.IsRegular := by
  refine ⟨fun x hx hitems => ?_, fun o o' t t' h h' => ?_,
    fun s s' => Instant.truncate_lt_of_leap, fun v s => Codec.isRegular_of_instant_decode,
    fun text s => Strict.isRegular_of_instant?⟩
  · obtain ⟨s, hs⟩ := Option.ne_none_iff_exists'.1 hx
    obtain ⟨info, hinfo, -⟩ := Object.created?_eq_some_iff.1 hs
    exact ⟨_, convert_single c ctx options hinfo hitems⟩
  · refine (convert_eq_ok_iff.1 h).1.imp fun e r hr => (convert_eq_ok_iff.1 h').1.imp ?_
    intro e' r' hr' s s' hs hs' hyear hyear' hregular hregular'
    exact hr.sortsAs hr' hs hs' hyear hyear' hregular hregular'

theorem sorted_cells_leap :
    let x := (Document.ofCells "a" "2016-12-31T23:59:60.5Z").toObject
    let x' := (Document.ofCells "b" "2017-01-01T01:00:00+01:00").toObject
    let s : Instant := ⟨1483228799, true, 500000000, by decide, by decide, by decide⟩
    let s' : Instant := ⟨1483228800, false, 0, by decide, by decide, by decide⟩
    let conv : Convertor := ⟨⟨"", "pods"⟩⟩
    let ctx : Context fun _ : Unit => String := .empty
    x.created? = some s ∧ x'.created? = some s' ∧ s.hasPlainYear ∧ s'.hasPlainYear ∧
      s.IsRegular ∧ s'.IsRegular ∧
      ∃ t t' cell cell', conv.convert ctx x none = .ok t ∧ conv.convert ctx x' none = .ok t' ∧
        t.rows.map (·.cells[1]?) = [some (.str cell)] ∧
        t'.rows.map (·.cells[1]?) = [some (.str cell')] ∧
        compare (bytes cell) (bytes cell') = .lt ∧ cell ≠ cell' := by
  intro x x' s s' conv ctx
  have hs : x.created? = some s := by decide +kernel
  have hs' : x'.created? = some s' := by decide +kernel
  have hyear : s.hasPlainYear = true := by decide +kernel
  have hyear' : s'.hasPlainYear = true := by decide +kernel
  have hregular : s.IsRegular := fun _ => rfl
  have hregular' : s'.IsRegular := nofun
  obtain ⟨hexists, hsorted, hleap, -⟩ := sorted_cells conv conv ctx ctx none none
  obtain ⟨t, ht⟩ := hexists x (by rw [hs]; exact Option.some_ne_none s) rfl
  obtain ⟨t', ht'⟩ := hexists x' (by rw [hs']; exact Option.some_ne_none s') rfl
  have hlater : s.truncate < s'.truncate := hleap s s' rfl rfl
  have hrows : List.Forall₂ _ [x] t.rows := hsorted x x' t t' ht ht'
  refine ⟨hs, hs', hyear, hyear', hregular, hregular', t, t', ?_⟩
  generalize t.rows = rows at hrows ⊢
  rcases hrows with _ | ⟨hrow, ⟨⟩⟩
  have hrow' : List.Forall₂ _ [x'] t'.rows := hrow
  generalize t'.rows = rows' at hrow' ⊢
  rcases hrow' with _ | ⟨hcells, ⟨⟩⟩
  obtain ⟨cell, cell', hcell, hcell', horder, hsame⟩ :=
    hcells s s' hs hs' hyear hyear' hregular hregular'
  refine ⟨cell, cell', ht, ht', congrArg (fun r => [r]) hcell, congrArg (fun r => [r]) hcell',
    horder.trans (compare_lt_iff_lt.2 hlater), fun heq => ?_⟩
  exact absurd (hsame.1 heq) hlater.ne

/-- A leap second inside a minute is shown as the second after it, and documents show no time that
is not in strict form: both times two seconds share a cell. -/
theorem shared_cells :
    let s : Instant := ⟨1709423764, true, 333000000, by decide, by decide, by decide⟩
    let s' : Instant := ⟨1709423765, false, 0, by decide, by decide, by decide⟩
    let s'' : Instant := ⟨1709423766, false, 0, by decide, by decide, by decide⟩
    let typed (created : Instant) : Object :=
      (TypedObject.mk ((ObjectMeta.named "a").withCreated (some created)) .null).toObject
    let dynamic (created : String) : Object := (Document.ofCells "a" created).toObject
    let conv : Convertor := ⟨⟨"", "pods"⟩⟩
    let ctx : Context fun _ : Unit => String := .empty
    let Shown (o : Object) (cell : String) : Prop :=
      ∃ t, conv.convert ctx o none = .ok t ∧ t.rows.map Row.cells = [[.str "a", .str cell]]
    s.truncate < s'.truncate ∧ s'.truncate < s''.truncate ∧ s.hasPlainYear ∧ s'.hasPlainYear ∧
      s''.hasPlainYear ∧ (typed s).created? = some s ∧ (typed s').created? = some s' ∧
      Shown (typed s) "2024-03-02T23:56:05Z" ∧ Shown (typed s') "2024-03-02T23:56:05Z" ∧
      Codec.instant.decode (.str "2024-03-02T23:56:05 UTC") = .ok s' ∧
      Codec.instant.decode (.str "2024-03-02T23:56:06 UTC") = .ok s'' ∧
      Shown (dynamic "2024-03-02T23:56:05 UTC") "0001-01-01T00:00:00Z" ∧
      Shown (dynamic "2024-03-02T23:56:06 UTC") "0001-01-01T00:00:00Z" := by
  intro s s' s'' typed dynamic conv ctx Shown
  have hcell : ∀ created, (typed created).items? = none ∧ (typed created).objectInfo? =
      some ((ObjectMeta.named "a").withCreated (some created)).info := fun _ => ⟨rfl, rfl⟩
  have htyped : ∀ created, Shown (typed created) created.wholeSeconds := fun created =>
    ⟨_, convert_single conv ctx none (hcell created).2 (hcell created).1, rfl⟩
  have hdynamic : ∀ created, Strict.instant? created = none →
      Shown (dynamic created) "0001-01-01T00:00:00Z" := by
    intro created h
    obtain ⟨t, ht, hcells⟩ := convert_ofCells conv ctx none "a" created
    rw [h] at hcells
    exact ⟨t, ht, hcells⟩
  have hs : s.wholeSeconds = "2024-03-02T23:56:05Z" := by decide +kernel
  have hs' : s'.wholeSeconds = "2024-03-02T23:56:05Z" := by decide +kernel
  exact ⟨Instant.truncate_lt_iff.2 (.inl (by decide)), Instant.truncate_lt_iff.2 (.inl (by decide)),
    by decide +kernel, by decide +kernel, by decide +kernel, rfl, rfl, hs ▸ htyped s,
    hs' ▸ htyped s', by decide +kernel, by decide +kernel, hdynamic _ (by decide +kernel),
    hdynamic _ (by decide +kernel)⟩

end Convertor

end ResourceTable
