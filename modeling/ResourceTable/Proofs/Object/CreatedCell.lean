import ResourceTable.Proofs.Object.DocumentTable
import ResourceTable.Proofs.Object.Rendering

namespace ResourceTable

open Traversal

def ObjectInfo.hasPlainTime (info : ObjectInfo) : Bool :=
  info.created.all Time.Instant.hasPlainYear

theorem instant?_createdCell_ne_none_iff (created : Option Time.Instant) :
    Time.Strict.instant? (createdCell created) ≠ none ↔
      created.all Time.Instant.hasPlainYear = true := by
  cases created with
  | none => decide +kernel
  | some t =>
    rw [Option.all_some, Time.Instant.hasPlainYear_iff, createdCell, t.strict_wholeSeconds]
    simp

theorem createdCell_instant? (created : Option Time.Instant) :
    createdCell (Time.Strict.instant? (createdCell created)) = plainCell created := by
  cases created with
  | none => decide +kernel
  | some t =>
    simp only [plainCell, Option.all_some, Time.Instant.hasPlainYear_iff]
    rw [createdCell.eq_1 t, t.strict_wholeSeconds]
    split
    · exact t.truncate.wholeSeconds_regular
    · rfl

/-- The document whose metadata has a name and a creation time. -/
def Document.ofCells (name created : String) : Document :=
  ⟨.obj [("metadata", .obj [("creationTimestamp", .str created), ("name", .str name)])]⟩

namespace Convertor

variable {ι : Type} [DecidableEq ι] [Hashable ι] {β : ι → Type}
variable {κ : Type} [DecidableEq κ] [Hashable κ] {γ : κ → Type}

theorem convert_ofCells (c : Convertor) (ctx : Context β) (options : Option TableOptions)
    (name created : String) :
    ∃ t, c.convert ctx (Document.ofCells name created).toObject options = .ok t ∧
      t.rows.map Row.cells =
        [[.str name, .str (createdCell (Time.Strict.instant? created))]] :=
  ⟨_, rfl, rfl⟩

/-- Cells of unknown times and of years of four digits in universal time are stamps, are read
strictly, and are shown again as they are; of other cells none of the three holds. -/
theorem created_cells {c : Convertor} {ctx : Context β} {o : Object}
    {options : Option TableOptions} {t : Table Embedded} (h : c.convert ctx o options = .ok t) :
    List.Forall₂ (fun e r => ∃ info, e.objectInfo? = some info ∧
      r.cells = [.str info.name, .str (createdCell info.created)] ∧
      (Time.IsStamp (createdCell info.created) ↔ info.hasPlainTime) ∧
      (Time.Strict.instant? (createdCell info.created) ≠ none ↔ info.hasPlainTime) ∧
      ∀ (c' : Convertor) (ctx' : Context γ) (options' : Option TableOptions),
        ∃ t', c'.convert ctx' (Document.ofCells info.name (createdCell info.created)).toObject
            options' = .ok t' ∧
          (t'.rows.map Row.cells = [r.cells] ↔ info.hasPlainTime)) o.elements t.rows := by
  refine (convert_eq_ok_iff.1 h).1.imp ?_
  rintro e r ⟨info, hinfo, rfl⟩
  refine ⟨info, hinfo, rfl, isStamp_createdCell _, instant?_createdCell_ne_none_iff _,
    fun c' ctx' options' => ?_⟩
  obtain ⟨t', ht', hcells⟩ := convert_ofCells c' ctx' options' info.name (createdCell info.created)
  refine ⟨t', ht', ?_⟩
  rw [hcells, createdCell_instant?, ObjectInfo.hasPlainTime, ← plainCell_eq_iff]
  simp

/-- An object created in a leap second of 2024, and one created in 10000. -/
theorem created_cells_years :
    let leap : Object := (Document.ofCells "a" "2024-02-29T23:59:60.5-00:30").toObject
    let late : Time.Instant := ⟨253402300800, false, 5, by decide, by decide, by decide⟩
    let typed : TypedObject := ⟨(ObjectMeta.named "b").withCreated (some late), .null⟩
    let o : Object := ⟨none, none, some [leap, typed.toObject], .ok .null⟩
    let conv : Convertor := ⟨⟨"", "pods"⟩⟩
    let ctx : Context fun _ : Unit => String := .empty
    ∃ t, conv.convert ctx o none = .ok t ∧
      t.rows.map Row.cells = [[.str "a", .str "2024-03-01T00:29:60Z"],
        [.str "b", .str "+10000-01-01T00:00:00Z"]] ∧
      Time.IsStamp "2024-03-01T00:29:60Z" ∧ ¬ Time.IsStamp "+10000-01-01T00:00:00Z" := by
  intro leap late typed o conv ctx
  have hconvert : ∃ t, conv.convert ctx o none = .ok t := ⟨_, rfl⟩
  obtain ⟨t, ht⟩ := hconvert
  have hrows : List.Forall₂ _ [leap, typed.toObject] t.rows :=
    created_cells (γ := fun _ : Unit => String) ht
  have hfirst :
      createdCell (Document.ofCells "a" "2024-02-29T23:59:60.5-00:30").objectInfo.created =
        "2024-03-01T00:29:60Z" := by
    decide +kernel
  have hsecond : createdCell (some late) = "+10000-01-01T00:00:00Z" := by decide +kernel
  refine ⟨t, ht, ?_⟩
  generalize t.rows = rows at hrows ⊢
  rcases hrows with _ | ⟨⟨_, ⟨⟩, hleap, hstamp, -⟩, _ | ⟨⟨_, ⟨⟩, hlate, hsign, -⟩, ⟨⟩⟩⟩
  rw [List.map_cons, List.map_singleton, hleap, hlate]
  refine ⟨by decide +kernel, ?_, ?_⟩
  · rw [← hfirst]
    exact hstamp.2 (by decide +kernel)
  · rw [← hsecond]
    exact fun h => absurd (hsign.1 h) (by decide +kernel)

/-- A time of the year 0 that is an hour ahead of universal time: the cell has a sign, which is not
read again. -/
theorem cell_with_sign :
    let conv : Convertor := ⟨⟨"", "pods"⟩⟩
    let ctx : Context fun _ : Unit => String := .empty
    ∃ t t', conv.convert ctx (Document.ofCells "a" "0000-01-01T00:00:00+01:00").toObject none =
        .ok t ∧
      t.rows.map Row.cells = [[.str "a", .str "-0001-12-31T23:00:00Z"]] ∧
      ¬ Time.IsStamp "-0001-12-31T23:00:00Z" ∧
      conv.convert ctx (Document.ofCells "a" "-0001-12-31T23:00:00Z").toObject none = .ok t' ∧
      t'.rows.map Row.cells = [[.str "a", .str "0001-01-01T00:00:00Z"]] := by
  intro conv ctx
  obtain ⟨t, ht, hcells⟩ := convert_ofCells conv ctx none "a" "0000-01-01T00:00:00+01:00"
  obtain ⟨t', ht', hcells'⟩ := convert_ofCells conv ctx none "a" "-0001-12-31T23:00:00Z"
  refine ⟨t, t', ht, hcells.trans ?_, ?_, ht', hcells'.trans ?_⟩
  · decide +kernel
  · exact Time.not_isStamp_of_sign (by decide) (by decide) _
  · decide +kernel

end Convertor

end ResourceTable
