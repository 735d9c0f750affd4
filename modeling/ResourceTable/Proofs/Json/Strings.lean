import ResourceTable.Json.Printer
import ResourceTable.Json.Reader

namespace ResourceTable.Tree

/-- The part that a written character reads as: controls without a name are written by number. -/
def pieceOf (c : Char) : Piece :=
  if c.toNat < 0x20 ∧ c ∉ ['\x08', '\x0c', '\n', '\r', '\t'] then .unit c.toNat else .char c

theorem unit?_control : ∀ n < 0x20,
    unit? '0' '0' (Nat.digitChar (n / 16)) (Nat.digitChar (n % 16)) = some n := by
  decide

theorem pieces?_cons {c : Char} (hquote : c ≠ '"') (hslash : c ≠ '\\') (hc : ¬ c.toNat < 0x20)
    (s : List Char) :
    pieces? (c :: s) = (pieces? s).map fun (ps, r) => (.char c :: ps, r) := by
  have hplain : ¬ (c.toNat < 0x20 ∨ c = '\\') := by
    rintro (h | h)
    · exact hc h
    · exact hslash h
  rw [pieces?.eq_def]
  split
  case h_5 c' s' _ _ _ heq =>
    cases heq
    rw [if_neg hplain]
    cases pieces? s <;> rfl
  all_goals simp_all

theorem pieces?_named {e c : Char} (he : escape? e = some c) (s : List Char) :
    pieces? ('\\' :: e :: s) = (pieces? s).map fun (ps, r) => (.char c :: ps, r) := by
  have hu : e ≠ 'u' := by
    rintro rfl
    cases he
  rw [pieces?, he]
  · cases pieces? s <;> rfl
  · exact fun _ _ _ _ _ h _ => hu h

theorem pieces?_numbered {n : Nat} (hn : n < 0x20) (s : List Char) :
    pieces? ('\\' :: 'u' :: '0' :: '0' :: Nat.digitChar (n / 16) :: Nat.digitChar (n % 16) :: s) =
      (pieces? s).map fun (ps, r) => (.unit n :: ps, r) := by
  rw [pieces?, unit?_control n hn]
  cases pieces? s <;> rfl

theorem pieces?_escapeChar (c : Char) (s : List Char) :
    pieces? (escapeChar c ++ s) = (pieces? s).map fun (ps, r) => (pieceOf c :: ps, r) := by
  unfold escapeChar
  split
  case h_8 hquote hslash hb hf hn hr ht =>
    split
    · next hc =>
      rw [pieceOf, if_pos ⟨hc, by simpa using ⟨hb, hf, hn, hr, ht⟩⟩]
      exact pieces?_numbered hc s
    · next hc =>
      rw [pieceOf, if_neg fun h => hc h.1]
      exact pieces?_cons hquote hslash hc s
  all_goals exact pieces?_named rfl s

theorem join?_control {n : Nat} (hn : n < 0x20) (ps : List Piece) :
    join? (.unit n :: ps) = (join? ps).map (Char.ofNat n :: ·) := by
  have hhigh : ¬ 0xd800 ≤ n := by omega
  have hlow : ¬ 0xdc00 ≤ n := by omega
  -- a unit is looked at together with the one after it, in case the two are a pair
  rcases ps with _ | ⟨_ | _, ps⟩
  all_goals simp [join?, hhigh, hlow]

theorem join?_pieceOf (cs : List Char) : join? (cs.map pieceOf) = some cs := by
  induction cs with
  | nil => rfl
  | cons c cs ih =>
    rw [List.map_cons, pieceOf]
    split
    · next hc =>
      rw [join?_control hc.1, ih, Option.map_some, Char.ofNat_toNat]
    · rw [join?, ih, Option.map_some]

/-- A written string is read back up to its closing quote. -/
theorem string?_escaped (s : String) (rest : List Char) :
    string? (s.toList.flatMap escapeChar ++ '"' :: rest) = some (some s, rest) := by
  have hpieces : ∀ cs : List Char,
      pieces? (cs.flatMap escapeChar ++ '"' :: rest) = some (cs.map pieceOf, rest) := by
    intro cs
    induction cs with
    | nil => rfl
    | cons c cs ih =>
      rw [List.flatMap_cons, List.append_assoc, pieces?_escapeChar, ih]
      rfl
  rw [string?, hpieces]
  simp only [Option.bind_eq_bind, Option.bind_some, join?_pieceOf, Option.map_some,
    String.ofList_toList]
  rfl

end ResourceTable.Tree
