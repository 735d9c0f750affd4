import Mathlib.Data.List.TakeWhile
import ResourceTable.Request.GroupResource

namespace ResourceTable.GroupResource

def EndsInOnlyDot (s : String) : Prop := ∃ r : String, '.' ∉ r.toList ∧ s = r ++ "."

theorem exists_split (s : String) :
    '.' ∉ s.toList ∨ ∃ resource group : String, '.' ∉ resource.toList ∧
      s = resource ++ "." ++ group := by
  by_cases h : '.' ∈ s.toList
  · obtain ⟨resource, group, hs, hresource⟩ := List.eq_append_cons_of_mem h
    refine .inr ⟨.ofList resource, .ofList group, ?_, ?_⟩
    · rwa [String.toList_ofList]
    · apply String.toList_injective
      simp [hs]
  · exact .inl h

theorem bne_dot_of_not_mem {cs : List Char} (h : '.' ∉ cs) : ∀ c ∈ cs, (c != '.') = true := by
  intro c hc
  exact bne_iff_ne.2 fun heq => h (heq ▸ hc)

theorem ofText_of_not_mem {s : String} (h : '.' ∉ s.toList) :
    ofText s = if s = "" then .error ⟨s⟩ else .ok ⟨"", s⟩ := by
  have hall := bne_dot_of_not_mem h
  simp [ofText, List.takeWhile_eq_self_iff.2 hall, List.dropWhile_eq_nil_iff.2 hall]

theorem ofText_append {resource : String} (h : '.' ∉ resource.toList) (group : String) :
    ofText (resource ++ "." ++ group) =
      if resource = "" then .error ⟨resource ++ "." ++ group⟩ else .ok ⟨group, resource⟩ := by
  have hall := bne_dot_of_not_mem h
  have hlist : (resource ++ "." ++ group).toList = resource.toList ++ '.' :: group.toList := by
    simp
  simp only [ofText, hlist, List.takeWhile_append_of_pos hall, List.dropWhile_append_of_pos hall]
  simp

theorem text_core (resource : String) : text ⟨"", resource⟩ = resource := rfl

theorem text_of_ne {group : String} (h : group ≠ "") (resource : String) :
    text ⟨group, resource⟩ = resource ++ "." ++ group := by
  simp [text, h]

/-- The texts that a group resource is read from: its own, which for the core group may end in a
dot. -/
theorem ofText_eq_ok_iff {s : String} {g : GroupResource} :
    ofText s = .ok g ↔ g.resource ≠ "" ∧ '.' ∉ g.resource.toList ∧
      (s = g.text ∨ g.group = "" ∧ s = g.text ++ ".") := by
  obtain ⟨group, resource⟩ := g
  constructor
  · intro h
    rcases exists_split s with hs | ⟨r, rest, hr, rfl⟩
    · rw [ofText_of_not_mem hs] at h
      split at h
      · cases h
      · next hne =>
        cases h
        exact ⟨hne, hs, .inl rfl⟩
    · rw [ofText_append hr] at h
      split at h
      · cases h
      · next hne =>
        cases h
        refine ⟨hne, hr, ?_⟩
        -- where nothing follows the dot that splits the text, it is not written again
        by_cases hgroup : group = ""
        · subst hgroup
          exact .inr ⟨rfl, String.append_empty⟩
        · exact .inl (text_of_ne hgroup resource).symm
  · rintro ⟨hne, hdot, hs⟩
    have happend : ofText (resource ++ "." ++ group) = .ok ⟨group, resource⟩ := by
      rw [ofText_append hdot, if_neg hne]
    by_cases hgroup : group = ""
    · subst hgroup
      rw [text_core] at hs
      rcases hs with rfl | ⟨-, rfl⟩
      · rw [ofText_of_not_mem hdot, if_neg hne]
      · rwa [String.append_empty] at happend
    · rcases hs with rfl | ⟨hnone, -⟩
      · rwa [text_of_ne hgroup]
      · exact absurd hnone hgroup

theorem ofText_isOk_iff {s : String} :
    (∃ g, ofText s = .ok g) ↔ s ≠ "" ∧ s.toList.head? ≠ some '.' := by
  rcases exists_split s with hs | ⟨r, rest, hr, rfl⟩
  · have hhead : s.toList.head? ≠ some '.' := fun h => hs (List.mem_of_mem_head? h)
    rw [ofText_of_not_mem hs]
    by_cases hempty : s = ""
    · simp [hempty]
    · simp [hempty, hhead]
  · rw [ofText_append hr]
    by_cases hempty : r = ""
    · simp [hempty]
    · have hhead : (r ++ "." ++ rest).toList.head? = r.toList.head? := by
        cases hlist : r.toList with
        | nil => exact absurd (String.toList_eq_nil_iff.1 hlist) hempty
        | cons c cs => simp [hlist]
      have hne : r ++ "." ++ rest ≠ "" := by simp
      have hdot : r.toList.head? ≠ some '.' := fun h => hr (List.mem_of_mem_head? h)
      rw [if_neg hempty, hhead]
      exact iff_of_true ⟨_, rfl⟩ ⟨hne, hdot⟩

theorem eq_of_ofText_eq_error {s : String} {e : InvalidText} (h : ofText s = .error e) :
    e = ⟨s⟩ := by
  rw [ofText] at h
  split at h
  · cases h
    rfl
  · cases h

/-- A dot that ends a text and is its only one is lost; nothing else is. -/
theorem text_of_ofText {s : String} {g : GroupResource} (h : ofText s = .ok g) :
    (EndsInOnlyDot s → s = g.text ++ ".") ∧ (¬ EndsInOnlyDot s → s = g.text) := by
  obtain ⟨hne, hdot, hs⟩ := ofText_eq_ok_iff.1 h
  constructor
  · rintro ⟨r, hr, rfl⟩
    have hread := ofText_append hr ""
    rw [String.append_empty, h] at hread
    split at hread
    · cases hread
    · cases hread
      rfl
  · intro hends
    rcases hs with rfl | ⟨hcore, rfl⟩
    · rfl
    · refine absurd ⟨g.text, ?_, rfl⟩ hends
      obtain ⟨group, resource⟩ := g
      cases hcore
      exact hdot

/-- A text is read unless it is empty or begins with a dot.  It is written as it stood, but for a
dot at the end that is the only one. -/
theorem text_form :
    (∀ s, ((∃ g, ofText s = .ok g) ↔ s ≠ "" ∧ s.toList.head? ≠ some '.') ∧
      (∀ e, ofText s = .error e → e = ⟨s⟩) ∧
      ∀ g, ofText s = .ok g →
        (EndsInOnlyDot s → s = g.text ++ ".") ∧ (¬ EndsInOnlyDot s → s = g.text) ∧
          ofText g.text = .ok g) ∧
    ∀ g : GroupResource,
      ofText g.text = .ok g ↔ g.resource ≠ "" ∧ '.' ∉ g.resource.toList := by
  have hback : ∀ g : GroupResource,
      ofText g.text = .ok g ↔ g.resource ≠ "" ∧ '.' ∉ g.resource.toList := by
    intro g
    rw [ofText_eq_ok_iff]
    exact ⟨fun h => ⟨h.1, h.2.1⟩, fun h => ⟨h.1, h.2, .inl rfl⟩⟩
  refine ⟨fun s => ⟨ofText_isOk_iff, fun _ => eq_of_ofText_eq_error, fun g hg => ?_⟩, hback⟩
  obtain ⟨hends, hother⟩ := text_of_ofText hg
  obtain ⟨hne, hdot, -⟩ := ofText_eq_ok_iff.1 hg
  exact ⟨hends, hother, (hback g).2 ⟨hne, hdot⟩⟩

/-- Dots at the end: the only one is dropped, the last of two belongs to the group.  A dot in the
resource is taken for the one before the group. -/
theorem text_form_dots :
    ofText "pods." = .ok ⟨"", "pods"⟩ ∧ "pods." = text ⟨"", "pods"⟩ ++ "." ∧
      ofText "pods.." = .ok ⟨".", "pods"⟩ ∧ "pods.." = text ⟨".", "pods"⟩ ∧
      ofText (text ⟨"", "pods.apps"⟩) ≠ .ok ⟨"", "pods.apps"⟩ := by
  obtain ⟨hread, hback⟩ := text_form
  have hone : ofText "pods." = .ok ⟨"", "pods"⟩ := by decide +kernel
  have htwo : ofText "pods.." = .ok ⟨".", "pods"⟩ := by decide +kernel
  have hends : EndsInOnlyDot "pods." := ⟨"pods", by decide, rfl⟩
  have hother : ¬ EndsInOnlyDot "pods.." := by
    rintro ⟨r, hr, heq⟩
    have hr' : r = "pods." := (String.append_left_inj ".").1 heq.symm
    exact absurd hr (by rw [hr']; decide)
  refine ⟨hone, ((hread _).2.2 _ hone).1 hends, htwo, ((hread _).2.2 _ htwo).2.1 hother, ?_⟩
  exact fun h => absurd ((hback _).1 h).2 (by decide)

end ResourceTable.GroupResource
