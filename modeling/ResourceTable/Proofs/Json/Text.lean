import ResourceTable.Proofs.Json.Integers
import ResourceTable.Proofs.Json.Strings

namespace ResourceTable.Tree

open Numeral (Ends)

/-- Trees that are written in full and without doubles: no faults, no key is missing, and the
integers are in range. -/
inductive Exact : Tree → Prop where
  | null : Exact .null
  | bool (b : Bool) : Exact (.bool b)
  | int {n : Int} (lower : -0x8000000000000000 ≤ n) (upper : n < 0x10000000000000000) :
    Exact (.int n)
  | str (s : String) : Exact (.str s)
  | arr {items : List Tree} (each : ∀ t ∈ items, Exact t) : Exact (.arr items)
  | obj {members : List (Option String × Tree)} (keys : ∀ m ∈ members, m.1.isSome)
      (each : ∀ m ∈ members, Exact m.2) : Exact (.obj members)

theorem ends_mark {c : Char} (hc : c ∈ [',', ']', '\x7d']) (s : List Char) : Ends (c :: s) := by
  rintro _ ⟨⟩
  simp only [List.mem_cons, List.not_mem_nil, or_false] at hc
  rcases hc with rfl | rfl | rfl <;> decide

theorem print_eq_cons {t : Tree} (h : t.Exact) :
    ∃ c s, t.print = c :: s ∧ c ∉ [' ', '\n', '\t', '\r', ']'] := by
  cases h with
  | int _ _ =>
    exact Numeral.intText_eq_cons _ _ (by decide)
  | bool b => cases b <;> exact ⟨_, _, rfl, by decide⟩
  | _ => exact ⟨_, _, rfl, by decide⟩

theorem skipBlank_cons {c : Char} (hc : c ∉ [' ', '\n', '\t', '\r']) (s : List Char) :
    skipBlank (c :: s) = c :: s := by
  rw [skipBlank, List.dropWhile_cons_of_neg]
  simpa [and_assoc] using hc

theorem value_scalar {c : Char} (hc : c ∉ [' ', '\n', '\t', '\r', '[', '\x7b']) (fuel : Nat)
    (s : List Char) : value (fuel + 1) (c :: s) = scalar (c :: s) := by
  have hblank : skipBlank (c :: s) = c :: s := skipBlank_cons (fun h => hc (by simp_all)) s
  rw [value, hblank]
  split
  · simp_all
  · simp_all
  · rfl

theorem value_bracket {c : Char} (hc : c ∉ [' ', '\n', '\t', '\r', ']']) (fuel : Nat)
    (s : List Char) :
    value (fuel + 1) ('[' :: c :: s) =
      (.arr (elements fuel (c :: s)).1, (elements fuel (c :: s)).2) := by
  have hblank : skipBlank (c :: s) = c :: s := skipBlank_cons (fun h => hc (by simp_all)) s
  rw [value, skipBlank_cons (by decide)]
  simp only [hblank]
  split
  · simp_all
  · rfl

theorem value_brace (fuel : Nat) (s : List Char) :
    value (fuel + 1) ('\x7b' :: '"' :: s) =
      (.obj (members fuel ('"' :: s)).1, (members fuel ('"' :: s)).2) := by
  rw [value, skipBlank_cons (by decide)]
  rfl

theorem scalar_intText {n : Int} (lower : -0x8000000000000000 ≤ n)
    (upper : n < 0x10000000000000000) {rest : List Char} (hrest : Ends rest) :
    scalar (Json.intText n ++ rest) = (.int n, rest) := by
  have hscan := Numeral.scan?_intText n hrest
  obtain ⟨c, s, hn, hc⟩ := Numeral.intText_eq_cons n ['n', 't', 'f', '"'] (by decide)
  rw [hn, List.cons_append] at hscan ⊢
  simp only [List.mem_cons, List.not_mem_nil, or_false, not_or] at hc
  have hnode : ofNumeral ⟨n < 0, Nat.toDigits 10 n.natAbs, [], none⟩ = .int n := by
    rw [ofNumeral, Numeral.int?_intText lower upper]
  unfold scalar
  split
  case h_5 => simp only [hscan, Option.map_some, hnode, Option.getD_some]
  all_goals simp_all

theorem scalar_printString (s : String) (rest : List Char) :
    scalar (printString s ++ rest) = (.str s, rest) := by
  simp only [printString, List.cons_append, List.append_assoc, List.nil_append, scalar,
    string?_escaped]
  rfl

/-- A tree is read back in front of anything, given fuel for each of its characters. -/
def ReadsBack (t : Tree) : Prop :=
  ∀ (fuel : Nat) (rest : List Char), 2 * t.print.length ≤ fuel → Ends rest →
    value fuel (t.print ++ rest) = (t, rest)

theorem printItems_cons_cons (t u : Tree) (items : List Tree) :
    printItems (t :: u :: items) = t.print ++ ',' :: printItems (u :: items) := by
  rw [printItems]
  nofun

theorem printMembers_cons_cons (key : Option String) (t : Tree) (m : Option String × Tree)
    (ms : List (Option String × Tree)) :
    printMembers ((key, t) :: m :: ms) =
      printString (key.getD "") ++ ':' :: t.print ++ ',' :: printMembers (m :: ms) := by
  rw [printMembers]
  nofun

theorem printItems_eq_cons {t : Tree} (h : t.Exact) (items : List Tree) :
    ∃ c s, printItems (t :: items) = c :: s ∧ c ∉ [' ', '\n', '\t', '\r', ']'] := by
  obtain ⟨c, s, hprint, hc⟩ := print_eq_cons h
  cases items with
  | nil => exact ⟨c, s, hprint, hc⟩
  | cons u items => exact ⟨c, _, by rw [printItems_cons_cons, hprint]; rfl, hc⟩

theorem elements_printItems {items : List Tree} (hne : items ≠ [])
    (each : ∀ t ∈ items, t.ReadsBack) (fuel : Nat) (rest : List Char)
    (hfuel : 2 * (printItems items).length + 1 ≤ fuel) :
    elements fuel (printItems items ++ ']' :: rest) = (items, rest) := by
  induction items generalizing fuel with
  | nil => exact absurd rfl hne
  | cons t items ih =>
    have ht := each t List.mem_cons_self
    obtain ⟨fuel, rfl⟩ : ∃ k, fuel = k + 1 := ⟨fuel - 1, by omega⟩
    cases items with
    | nil =>
      rw [printItems] at hfuel ⊢
      rw [elements, ht _ _ (by omega) (ends_mark (by decide) rest)]
      rfl
    | cons u items =>
      rw [printItems_cons_cons, List.length_append, List.length_cons] at hfuel
      rw [printItems_cons_cons, List.append_assoc, List.cons_append, elements,
        ht _ _ (by omega) (ends_mark (by decide) _)]
      have hrest := ih nofun (fun v hv => each v (List.mem_cons_of_mem _ hv)) fuel (by omega)
      simp only [skipBlank_cons (c := ',') (by decide), hrest]

theorem printString_append (key : String) (s : List Char) :
    printString key ++ s = '"' :: (key.toList.flatMap escapeChar ++ '"' :: s) := by
  simp [printString]

/-- A member with another one after it. -/
theorem members_comma {fuel : Nat} {s rest : List Char} {t : Tree} (key : String)
    (h : value fuel s = (t, ',' :: rest)) :
    members (fuel + 1) (printString key ++ ':' :: s) =
      ((some key, t) :: (members fuel rest).1, (members fuel rest).2) := by
  rw [printString_append, members, skipBlank_cons (by decide)]
  simp only [string?_escaped, skipBlank_cons (c := ':') (by decide), h,
    skipBlank_cons (c := ',') (by decide)]

theorem members_close {fuel : Nat} {s rest : List Char} {t : Tree} (key : String)
    (h : value fuel s = (t, '\x7d' :: rest)) :
    members (fuel + 1) (printString key ++ ':' :: s) = ([(some key, t)], rest) := by
  rw [printString_append, members, skipBlank_cons (by decide)]
  simp only [string?_escaped, skipBlank_cons (c := ':') (by decide), h,
    skipBlank_cons (c := '\x7d') (by decide)]

theorem members_printMembers {ms : List (Option String × Tree)} (hne : ms ≠ [])
    (keys : ∀ m ∈ ms, m.1.isSome) (each : ∀ m ∈ ms, m.2.ReadsBack) (fuel : Nat)
    (rest : List Char) (hfuel : 2 * (printMembers ms).length + 1 ≤ fuel) :
    members fuel (printMembers ms ++ '\x7d' :: rest) = (ms, rest) := by
  induction ms generalizing fuel with
  | nil => exact absurd rfl hne
  | cons m ms ih =>
    obtain ⟨key, t⟩ := m
    obtain ⟨key, rfl⟩ := Option.isSome_iff_exists.1 (keys _ List.mem_cons_self)
    have ht : t.ReadsBack := each _ List.mem_cons_self
    obtain ⟨fuel, rfl⟩ : ∃ k, fuel = k + 1 := ⟨fuel - 1, by omega⟩
    cases ms with
    | nil =>
      rw [printMembers, Option.getD_some] at hfuel ⊢
      rw [List.length_append, List.length_cons] at hfuel
      rw [List.append_assoc, List.cons_append,
        members_close key (ht _ _ (by omega) (ends_mark (by decide) rest))]
    | cons m ms =>
      rw [printMembers_cons_cons, Option.getD_some] at hfuel ⊢
      simp only [List.length_append, List.length_cons] at hfuel
      have hrest := ih nofun (fun n hn => keys n (List.mem_cons_of_mem _ hn))
        (fun n hn => each n (List.mem_cons_of_mem _ hn)) fuel (by omega)
      rw [List.append_assoc, List.append_assoc, List.cons_append, List.cons_append,
        members_comma key (ht _ _ (by omega) (ends_mark (by decide) _)), hrest]

theorem readsBack_of_scalar {t : Tree} {c : Char} {s : List Char} (hprint : t.print = c :: s)
    (hc : c ∉ [' ', '\n', '\t', '\r', '[', '\x7b'])
    (h : ∀ rest, Ends rest → scalar (t.print ++ rest) = (t, rest)) : t.ReadsBack := by
  intro fuel rest hfuel hrest
  have hlength : 0 < t.print.length := by simp [hprint]
  obtain ⟨fuel, rfl⟩ : ∃ k, fuel = k + 1 := ⟨fuel - 1, by omega⟩
  rw [← h rest hrest, hprint, List.cons_append, value_scalar hc]

theorem Exact.readsBack {t : Tree} (h : t.Exact) : t.ReadsBack := by
  -- the fuel is twice the length: brackets pay for the step into the list and commas for its steps
  induction h with
  | null => exact readsBack_of_scalar rfl (by decide) fun _ _ => rfl
  | bool b =>
    cases b with
    | false => exact readsBack_of_scalar rfl (by decide) fun _ _ => rfl
    | true => exact readsBack_of_scalar rfl (by decide) fun _ _ => rfl
  | int lower upper =>
    obtain ⟨c, s, hn, hc⟩ :=
      Numeral.intText_eq_cons _ [' ', '\n', '\t', '\r', '[', '\x7b'] (by decide)
    exact readsBack_of_scalar hn hc fun _ hrest => scalar_intText lower upper hrest
  | str s => exact readsBack_of_scalar rfl (by decide) fun rest _ => scalar_printString s rest
  | @arr items each ih =>
    intro fuel rest hfuel _
    simp only [print, List.cons_append, List.length_cons, List.length_append] at hfuel
    obtain ⟨fuel, rfl⟩ : ∃ k, fuel = k + 1 := ⟨fuel - 1, by omega⟩
    simp only [print, List.cons_append, List.append_assoc, List.nil_append]
    cases items with
    | nil => rfl
    | cons t items =>
      have hitems := elements_printItems (List.cons_ne_nil t items) ih fuel rest (by omega)
      obtain ⟨c, s, hprint, hc⟩ := printItems_eq_cons (each t List.mem_cons_self) items
      rw [hprint, List.cons_append] at hitems
      rw [hprint, List.cons_append, value_bracket hc, hitems]
  | @obj ms keys each ih =>
    intro fuel rest hfuel _
    simp only [print, List.cons_append, List.length_cons, List.length_append] at hfuel
    obtain ⟨fuel, rfl⟩ : ∃ k, fuel = k + 1 := ⟨fuel - 1, by omega⟩
    simp only [print, List.cons_append, List.append_assoc, List.nil_append]
    cases ms with
    | nil => rfl
    | cons m ms =>
      have hmembers := members_printMembers (List.cons_ne_nil m ms) keys ih fuel rest (by omega)
      obtain ⟨s, hprint⟩ : ∃ s, printMembers (m :: ms) = '"' :: s := by
        cases ms with
        | nil => exact ⟨_, rfl⟩
        | cons n ms => exact ⟨_, printMembers_cons_cons m.1 m.2 n ms⟩
      rw [hprint, List.cons_append] at hmembers
      rw [hprint, List.cons_append, value_brace, hmembers]

/-- A written tree is read back, with nothing left. -/
theorem read_print {t : Tree} (h : t.Exact) : read t.print = (t, []) := by
  have hread := h.readsBack (2 * t.print.length + 2) [] (by omega) nofun
  rwa [List.append_nil] at hread

end ResourceTable.Tree
