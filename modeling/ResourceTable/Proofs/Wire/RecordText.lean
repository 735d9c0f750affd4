import ResourceTable.Proofs.Wire.Coherent

namespace ResourceTable

open Wire Traversal ResourceTable.Tree

namespace Fields

variable {ρ δ : Type}

def Coherent : {ρ δ : Type} → Fields ρ δ → Prop
  | _, _, .nil => True
  | _, _, .cons f rest => f.codec.Coherent ∧ rest.Coherent

variable {fs : Fields ρ δ} {depth : Nat} {look : String → Option Json}

theorem meetText_eq_ok_iff {key : String} {t : Tree} {v : Json} {d d' : δ} (hfs : fs.Coherent)
    (ht : t.Holds depth v) (hd : fs.Drafts look d) (hlook : look key = none) :
    fs.meetText key t depth d = .ok d' ↔ fs.meet key v d = .ok d' := by
  induction fs with
  | nil =>
    rw [meetText, if_pos (isWhole_of_json? ht.value), meet, Except.ok.injEq, Except.ok.injEq]
  | cons f rest ih =>
    obtain ⟨x, d⟩ := d
    simp only [meetText, meet]
    by_cases hf : key = f.key
    · have hdraft := hd.1
      rw [← hf, hlook] at hdraft
      cases hdraft
      rw [if_pos hf, if_pos hf, Option.isSome_none, if_neg Bool.false_ne_true, map_eq_ok, map_eq_ok]
      simp only [hfs.1 ht]
    · rw [if_neg hf, if_neg hf, map_eq_ok, map_eq_ok]
      simp only [ih hfs.2 hd.2]

/-- All members of a text, none of which has been met before. -/
theorem foldlM_meetText_eq_ok_iff {members : List (Option String × Tree)} {es : Entries Json}
    {d d' : δ} (hk : fs.keys.Nodup) (hfs : fs.Coherent)
    (each : List.Forall₂ (MemberHolds depth) members es) (hnodup : (es.map Prod.fst).Nodup)
    (hd : fs.Drafts look d) (hlook : ∀ e ∈ es, look e.1 = none) :
    members.foldlM (fun d (key, t) =>
        match key with
        | none => Except.error ReadFault.notJson
        | some key => fs.meetText key t depth d) d = .ok d' ↔
      es.foldlM (fun d (key, v) => fs.meet key v d) d = .ok d' := by
  -- `look` finds what was met before, and the keys to come are not among it
  induction each generalizing look d with
  | nil => rw [List.foldlM_nil, List.foldlM_nil, pure_eq_ok, pure_eq_ok]
  | @cons m e members es hm each ih =>
    obtain ⟨_, t⟩ := m
    obtain ⟨key, v⟩ := e
    obtain ⟨rfl, ht⟩ := hm
    obtain ⟨hfresh, hrest⟩ := List.nodup_cons.1 hnodup
    rw [List.foldlM_cons, List.foldlM_cons, bind_eq_ok, bind_eq_ok]
    refine exists_congr fun d₁ => ?_
    rw [meetText_eq_ok_iff hfs ht hd (hlook _ List.mem_cons_self)]
    refine and_congr_right fun hmeet => ih hrest ((meet_eq_ok_iff hk hd).1 hmeet) ?_
    intro e he
    rw [Function.update_of_ne]
    · exact hlook e (List.mem_cons_of_mem _ he)
    · rintro hkey
      exact hfresh (hkey ▸ List.mem_map_of_mem he)

theorem readObject_eq_ok_iff {members : List (Option String × Tree)} {es : Entries Json} {r : ρ}
    (hk : fs.keys.Nodup) (hfs : fs.Coherent) (hnodup : (es.map Prod.fst).Nodup)
    (each : List.Forall₂ (MemberHolds depth) members es) :
    fs.readObject members depth = .ok r ↔ fs.decodeObject es.sorted = .ok r := by
  have horder : fs.decodeObject es.sorted = .ok r ↔ fs.decodeObject es = .ok r := by
    rw [decodeObject_eq_ok_iff hk es.ascending_sorted.nodup_keys, decodeObject_eq_ok_iff hk hnodup]
    simp only [Entries.lookup_sorted hnodup]
  rw [horder, readObject, decodeObject, bind_eq_ok, bind_eq_ok]
  refine exists_congr fun d => and_congr ?_ (by rw [mapError_eq_ok, mapError_eq_ok])
  exact foldlM_meetText_eq_ok_iff hk hfs each hnodup fs.drafts_blank fun _ _ => rfl

theorem exists_left_iff {ε α γ : Type} {x : Except ε α} {y : Except ε (ρ × List γ)} {a : α}
    {r : ρ} :
    (∃ left, (do
        let a ← x
        let (r, left) ← y
        return ((a, r), left)) = Except.ok ((a, r), left) ∧ left.isEmpty) ↔
      x = .ok a ∧ ∃ left, y = .ok (r, left) ∧ left.isEmpty := by
  rcases x with e | a'
  · simp [bind, Except.bind]
  · rcases y with e | ⟨r', left⟩
    · simp [bind, Except.bind]
    · simp [bind, Except.bind, pure, Except.pure, and_assoc]

theorem ofTrees_eq_ok_iff {items : List Tree} {vs : List Json} {r : ρ} (name : String)
    (total seen : Nat) (hfs : fs.Coherent) (each : List.Forall₂ (Holds depth) items vs) :
    (∃ left, fs.ofTrees items depth = .ok (r, left) ∧ left.isEmpty) ↔
      ∃ left, fs.ofItems name total seen vs = .ok (r, left) ∧ left.isEmpty := by
  induction fs generalizing items vs seen with
  | nil =>
    simp only [ofTrees, ofItems, Except.ok.injEq, Prod.mk.injEq]
    cases each <;> simp
  | cons f rest ih =>
    obtain ⟨x, r⟩ := r
    cases each with
    | nil =>
      simp only [ofTrees, ofItems]
      cases f.absent with
      | none => simp
      | some y =>
        have hrest := ih (r := r) (seen + 1) hfs.2 .nil
        exact (exists_left_iff (x := .ok y)).trans
          ((and_congr (by simp) hrest).trans (exists_left_iff (x := .ok y)).symm)
    | cons ht each =>
      have hrest := ih (r := r) (seen + 1) hfs.2 each
      simp only [ofTrees, ofItems]
      rw [exists_left_iff, exists_left_iff, hfs.1 ht, hrest]

theorem readArray_eq_ok_iff {items : List Tree} {vs : List Json} {r : ρ} (name : String)
    (hfs : fs.Coherent) (each : List.Forall₂ (Holds depth) items vs) :
    fs.readArray items depth = .ok r ↔ fs.decodeArray name vs = .ok r := by
  rw [readArray, decodeArray, none_left_iff, none_left_iff]
  exact ofTrees_eq_ok_iff name fs.count 0 hfs each

/-- A record is read off a text as it is decoded from a value, if its fields are. -/
theorem codec_coherent {α : Type} {name : String} {ofRow : ρ → α} {toRow : α → ρ}
    (hk : fs.keys.Nodup) (hfs : fs.Coherent) : (fs.codec name ofRow toRow).Coherent := by
  intro t depth v ht x
  cases ht.shape with
  | arr each => simp only [codec, map_eq_ok, readArray_eq_ok_iff name hfs each]
  | obj distinct each => simp only [codec, map_eq_ok, readObject_eq_ok_iff hk hfs distinct each]
  | _ => constructor <;> rintro ⟨⟩

end Fields

end ResourceTable
