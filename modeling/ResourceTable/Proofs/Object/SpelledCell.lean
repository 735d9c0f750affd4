import ResourceTable.Proofs.Object.CreatedCell
import ResourceTable.Proofs.Time.Spelling

namespace ResourceTable

open Time

structure Json.Spells (v : Json) (s : Spelling) : Prop where
  isSingle : v.IsSingle
  spelled : v.inMetadata? "creationTimestamp" = some (.str s.text)

namespace Json

theorem createdText_of_inMetadata? {v : Json} {text : String} {t : Instant}
    (hv : v.inMetadata? "creationTimestamp" = some (.str text))
    (ht : Strict.instant? text = some t) : v.createdText = t.wholeSeconds := by
  rw [createdText, hv]
  show ((Strict.instant? text).map Instant.wholeSeconds).getD unknownTime = _
  rw [ht, Option.map_some, Option.getD_some]

/-- Spellings of one second are shown alike: as that second in universal time. -/
theorem Spells.createdText_eq {v : Json} {s s' : Spelling} (h : v.Spells s')
    (hyear : 0 ≤ s.universalDate.year ∧ s.universalDate.year ≤ 9999)
    (hminutes : s'.minutes = s.minutes) (hsecond : s'.second = s.second) :
    v.createdText = (s.universal hyear).text := by
  obtain ⟨t, ht, hnames⟩ := s'.exists_instant
  rw [createdText_of_inMetadata? h.spelled ht,
    s.wholeSeconds_eq hyear (hnames.congr hminutes hsecond)]

end Json

theorem Row.Shows.cells_eq {r : Row Embedded} {v : Json} (h : r.Shows v.toObject)
    (hv : v.IsSingle) : r.cells = [.str (v.metadataText "name"), .str v.createdText] := by
  obtain ⟨info, hinfo, rfl⟩ := h
  rw [Json.toObject_of_isSingle hv] at hinfo
  rw [← Option.some.inj hinfo, ← Json.text_metadata, ← Json.createdCell_metadata]
  rfl

namespace Convertor

variable {ι : Type} [DecidableEq ι] [Hashable ι] {β : ι → Type}
variable {κ : Type} [DecidableEq κ] [Hashable κ] {γ : κ → Type}

theorem exists_row_of_isSingle {v : Json} (hv : v.IsSingle) (c : Convertor) (ctx : Context β)
    (options : Option TableOptions) :
    ∃ t, c.convert ctx (Document.toObject ⟨v⟩) options = .ok t ∧
      t.rows.map Row.cells = [[.str (v.metadataText "name"), .str v.createdText]] := by
  have hinfo : (Document.toObject ⟨v⟩).objectInfo? =
      some (Dynamic.objectInfo (v.member? "metadata")) := by
    rw [Document.toObject, Json.toObject_of_isSingle hv]
  have hitems : (Document.toObject ⟨v⟩).items? = none := by
    rw [Document.toObject, Json.toObject_of_isSingle hv]
  refine ⟨_, convert_single c ctx options hinfo hitems, ?_⟩
  rw [← Json.text_metadata, ← Json.createdCell_metadata]
  rfl

/-- However the creation time is spelled, the cell shows it in universal time: minutes and hours
borrow from the day before or carry into the day after, and the fraction goes. -/
theorem spelled_converted {v : Json} {s : Spelling} (h : v.Spells s)
    (hyear : 0 ≤ s.universalDate.year ∧ s.universalDate.year ≤ 9999) (c : Convertor)
    (ctx : Context β) (options : Option TableOptions) :
    (s.universal hyear).minutes = s.minutes ∧
      (∃ t, c.convert ctx (Document.toObject ⟨v⟩) options = .ok t ∧
        t.rows.map Row.cells =
          [[.str (v.metadataText "name"), .str (s.universal hyear).text]]) ∧
      (∀ o t, c.convert ctx o options = .ok t →
        List.Forall₂ (fun e r => e = Document.toObject ⟨v⟩ →
          r.cells = [.str (v.metadataText "name"), .str (s.universal hyear).text])
          o.elements t.rows) ∧
      ∀ (w : Json) (s' : Spelling) (c' : Convertor) (ctx' : Context γ)
        (options' : Option TableOptions),
        w.Spells s' → s'.minutes = s.minutes → s'.second = s.second →
          ∃ t', c'.convert ctx' (Document.toObject ⟨w⟩) options' = .ok t' ∧
            t'.rows.map Row.cells =
              [[.str (w.metadataText "name"), .str (s.universal hyear).text]] := by
  have hcell := h.createdText_eq hyear rfl rfl
  refine ⟨s.minutes_universal hyear, ?_, fun o t ht => ?_,
    fun w s' c' ctx' options' h' hminutes hsecond => ?_⟩
  · rw [← hcell]
    exact exists_row_of_isSingle h.isSingle c ctx options
  · refine (convert_eq_ok_iff.1 ht).1.imp ?_
    rintro e r hrow rfl
    rw [← hcell]
    exact hrow.cells_eq h.isSingle
  · rw [← h'.createdText_eq hyear hminutes hsecond]
    exact exists_row_of_isSingle h'.isSingle c' ctx' options'

/-- A leap second on 29 February, half an hour behind universal time, and the same one spelled on
1 March, half an hour ahead of it. -/
theorem spelled_converted_leap :
    let s : Spelling := ⟨⟨2024, 2, 29⟩, 't', 23, 59, 60, ['5'],
      .shifted '-' 0 30 (by decide) (by decide) (by decide), by decide, by decide, by decide,
      by decide, by decide, by decide, List.forall_mem_singleton.2 rfl⟩
    let s' : Spelling := ⟨⟨2024, 3, 1⟩, ' ', 0, 59, 60, [],
      .shifted '+' 0 30 (by decide) (by decide) (by decide), by decide, by decide, by decide,
      by decide, by decide, by decide, nofun⟩
    let v := (Document.ofCells "a" "2024-02-29t23:59:60.5-00:30").value
    let w := (Document.ofCells "b" "2024-03-01 00:59:60+00:30").value
    let conv : Convertor := ⟨⟨"", "pods"⟩⟩
    let ctx : Context fun _ : Unit => String := .empty
    v.Spells s ∧ w.Spells s' ∧
      ∃ t t', conv.convert ctx (Document.toObject ⟨v⟩) none = .ok t ∧
        conv.convert ctx (Document.toObject ⟨w⟩) none = .ok t' ∧
        t.rows.map Row.cells = [[.str "a", .str "2024-03-01T00:29:60Z"]] ∧
        t'.rows.map Row.cells = [[.str "b", .str "2024-03-01T00:29:60Z"]] := by
  intro s s' v w conv ctx
  have hv : v.Spells s := ⟨⟨rfl, nofun⟩, by decide +kernel⟩
  have hw : w.Spells s' := ⟨⟨rfl, nofun⟩, by decide +kernel⟩
  have hyear : 0 ≤ s.universalDate.year ∧ s.universalDate.year ≤ 9999 := by decide +kernel
  have htext : ∀ h, (s.universal h).text = "2024-03-01T00:29:60Z" := by decide +kernel
  obtain ⟨-, ⟨t, ht, hcells⟩, -, hsame⟩ := spelled_converted (γ := fun _ : Unit => String) hv hyear
    conv ctx none
  obtain ⟨t', ht', hcells'⟩ := hsame w s' conv ctx none hw (by decide +kernel) rfl
  rw [htext hyear] at hcells hcells'
  exact ⟨hv, hw, t, t', ht, ht', hcells, hcells'⟩

end Convertor

end ResourceTable
