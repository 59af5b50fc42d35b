import DraftLint.Proofs.Pattern.Occurrence
import DraftLint.RequirementLevel

/-!
# Keywords in joined texts

A pattern between two word edges reads the first of its ways that ends at such an edge.  Keywords of two texts are
found in order if three spaces stand between the texts, as no keyword has two blanks in a row.
-/

namespace DraftLint

namespace Pattern

variable {p : Pattern}

/-- A word begins or ends between two texts. -/
def edge (u v : Text) : Bool :=
  u.getLast?.any Text.isWord != v.head?.any Text.isWord

theorem edge_append_cons_right (u v w : Text) : edge u (v ++ ' ' :: w) = edge u v := by
  cases v with
  | nil => rfl
  | cons c v => rfl

theorem edge_append_cons_left (u v w : Text) : edge (u ++ ' ' :: v) w = edge v w := by
  rw [edge, edge, List.getLast?_append]
  cases v with
  | nil => rfl
  | cons c v => rw [List.getLast?_cons_cons, List.getLast?_cons, Option.some_or]

/-- The way is seen ahead, and a word begins or ends where it does. -/
def standsAt (u v : Text) (row : List CharSet) : Bool :=
  Cursor.sees row v && edge (u ++ v.take row.length) (v.drop row.length)

theorem holds_wordEdge_eq (u v : Text) : Anchor.wordEdge.holds (.amid u v) = edge u v :=
  holds_wordEdge u v

/-- A pattern between two edges of words reads the first of its ways that stands there. -/
theorem text_matchAt_edges (hp : p.Bounded) (u v : Text) (fuel : Nat) :
    ((seq wordEdge (seq p wordEdge)).matchAt fuel (.amid u v)).map Match.text =
      if edge u v then (p.rows.find? (standsAt u v)).map fun row => v.take row.length else none := by
  have hrow : ∀ row : List CharSet, Match.between (.amid u v) (.amid (u ++ v.take row.length) (v.drop row.length)) =
      v.take row.length := by
    intro row
    have hbetween := Match.between_amid u (v.take row.length) (v.drop row.length)
    rwa [List.take_append_drop] at hbetween
  have hinner : ((p.run fuel ⟨.amid u v, []⟩ fun r => wordEdge.run fuel r fun r =>
      some (⟨.amid u v, r.cursor, r.captures⟩ : Match)).map Match.text) =
      (p.rows.find? (standsAt u v)).map fun row => v.take row.length := by
    rw [run_rows hp]
    induction p.rows with
    | nil => rfl
    | cons row rows ih =>
      rw [List.findSome?_cons, List.find?_cons, standsAt, ← holds_wordEdge_eq]
      cases hsees : Cursor.sees row v with
      | false => simpa using ih
      | true =>
        cases hedge : Anchor.wordEdge.holds (.amid (u ++ v.take row.length) (v.drop row.length)) with
        | false => simpa [wordEdge, run, hedge] using ih
        | true => simp [wordEdge, run, hedge, Match.text, hrow]
  cases hedge : edge u v with
  | false => simp [matchAt, wordEdge, run, holds_wordEdge_eq, hedge]
  | true =>
    rw [if_pos rfl, ← hinner, matchAt, run, wordEdge, run, holds_wordEdge_eq, hedge, if_pos rfl]
    rfl

end Pattern

namespace RequirementLevel

open Pattern

variable {row : List CharSet}

/-- What a keyword reads between the edges of its words. -/
def keywordBody : Pattern :=
  all [maybe (seq (lit "NOT") blank),
    oneOf (["MUST", "REQUIRED", "SHALL", "SHOULD", "RECOMMENDED", "OPTIONAL", "MAY"].map lit),
    maybe (seq blank (lit "NOT"))]

theorem matchAt_keyword (fuel : Nat) (c : Cursor) :
    keyword.matchAt fuel c = (seq wordEdge (seq keywordBody wordEdge)).matchAt fuel c :=
  rfl

theorem bounded_keywordBody : keywordBody.Bounded := by
  have hwords : (oneOf (["MUST", "REQUIRED", "SHALL", "SHOULD", "RECOMMENDED", "OPTIONAL", "MAY"].map lit)).Bounded :=
    ⟨bounded_lit _, bounded_lit _, bounded_lit _, bounded_lit _, bounded_lit _, bounded_lit _, bounded_lit _⟩
  have hblank : Pattern.blank.Bounded := trivial
  exact ((bounded_lit _).seq hblank).maybe.seq <| hwords.seq (hblank.seq (bounded_lit _)).maybe

/-- The text of the keyword that stands between two texts, if one does. -/
theorem text_matchAt_keyword (u v : Text) (fuel : Nat) :
    (keyword.matchAt fuel (.amid u v)).map Match.text =
      if edge u v then (keywordBody.rows.find? (standsAt u v)).map fun row => v.take row.length else none :=
  (congrArg (Option.map Match.text) (matchAt_keyword fuel _)).trans (text_matchAt_edges bounded_keywordBody u v fuel)

theorem head_of_mem_rows : ∀ row ∈ keywordBody.rows, row.head?.any fun s => !s ' ' := by
  decide

/-- Wherever one goes on in a keyword, there are not two spaces. -/
theorem not_sees_spaces : ∀ row ∈ keywordBody.rows, ∀ k < row.length,
    Cursor.sees ((row.drop k).take 2) [' ', ' '] = false := by
  decide

theorem not_sees_space (hrow : row ∈ keywordBody.rows) (w : Text) : Cursor.sees row (' ' :: w) = false := by
  have hhead := head_of_mem_rows row hrow
  cases row with
  | nil => cases hhead
  | cons s row =>
    rw [List.head?_cons, Option.any_some, Bool.not_eq_true'] at hhead
    rw [Cursor.sees, hhead, Bool.false_and]

theorem sees_append_spaces (hrow : row ∈ keywordBody.rows) (y w : Text) :
    Cursor.sees row (y ++ ' ' :: ' ' :: w) = Cursor.sees row y := by
  rcases Nat.lt_or_ge y.length row.length with hlt | hle
  · have hnot : Cursor.sees row (y ++ ' ' :: ' ' :: w) = false := by
      rw [Bool.eq_false_iff]
      intro hsees
      have hspaces := Cursor.sees_take (Cursor.sees_drop hsees (Nat.le_of_lt hlt)) 2
      have htwo : ((row.drop y.length).take 2).length ≤ [' ', ' '].length := List.length_take_le 2 _
      have hsplit := Cursor.sees_append_right htwo w
      rw [not_sees_spaces row hrow y.length hlt] at hsplit
      exact Bool.false_ne_true (hsplit.symm.trans hspaces)
    rw [hnot, eq_comm, Bool.eq_false_iff]
    exact fun hsees => absurd (length_le_of_sees hsees) (Nat.not_le_of_lt hlt)
  · exact Cursor.sees_append_right hle _

theorem standsAt_append_spaces (hrow : row ∈ keywordBody.rows) (u y w : Text) :
    standsAt u (y ++ ' ' :: ' ' :: w) row = standsAt u y row := by
  rw [standsAt, standsAt, sees_append_spaces hrow]
  cases hsees : Cursor.sees row y with
  | false => rw [Bool.false_and, Bool.false_and]
  | true =>
    have hle := length_le_of_sees hsees
    rw [List.take_append_of_le_length hle, List.drop_append_of_le_length hle, edge_append_cons_right]

/-- What follows two spaces makes no difference to a keyword in front of them. -/
theorem text_matchAt_append_spaces (u y w : Text) (fuel fuel' : Nat) :
    (keyword.matchAt fuel (.amid u (y ++ ' ' :: ' ' :: w))).map Match.text =
      (keyword.matchAt fuel' (.amid u y)).map Match.text := by
  rw [text_matchAt_keyword, text_matchAt_keyword, edge_append_cons_right,
    List.find?_congr fun row hrow => standsAt_append_spaces hrow u y w]
  cases hfind : keywordBody.rows.find? (standsAt u y) with
  | none => rfl
  | some row =>
    have hstands : standsAt u y row = true := List.find?_some hfind
    have hle := length_le_of_sees (Bool.and_eq_true_iff.mp hstands).1
    rw [Option.map_some, Option.map_some, List.take_append_of_le_length hle]

theorem matchAt_keyword_space (u w : Text) (fuel : Nat) : keyword.matchAt fuel (.amid u (' ' :: w)) = none := by
  have hnone : keywordBody.rows.find? (standsAt u (' ' :: w)) = none := by
    rw [List.find?_eq_none]
    intro row hrow
    rw [standsAt, not_sees_space hrow, Bool.false_and]
    exact Bool.false_ne_true
  have htext := text_matchAt_keyword u (' ' :: w) fuel
  rw [hnone, Option.map_none, ite_self, Option.map_eq_none_iff] at htext
  exact htext

/-- What stands before a space makes no difference to a keyword behind it. -/
theorem text_matchAt_behind_space (u x y : Text) (fuel fuel' : Nat) :
    (keyword.matchAt fuel (.amid (u ++ ' ' :: x) y)).map Match.text =
      (keyword.matchAt fuel' (.amid x y)).map Match.text := by
  have hstands : standsAt (u ++ ' ' :: x) y = standsAt x y := by
    funext row
    rw [standsAt, standsAt, List.append_assoc, List.cons_append, edge_append_cons_left]
  rw [text_matchAt_keyword, text_matchAt_keyword, edge_append_cons_left, hstands]

theorem foundAfter_behind_space (u b : Text) (fuel : Nat) :
    keyword.foundAfter fuel (u ++ [' ']) b = (keyword.scan b).map Match.text := by
  have hconsumes : keyword.consumes := by decide
  have hsplit : keyword.foundAfter fuel (u ++ [' ']) (b ++ []) =
      keyword.foundAfter b.length [] b ++ keyword.foundAfter fuel (u ++ [' '] ++ b) [] := by
    refine foundAfter_append hconsumes fun x y _ _ => ?_
    rw [List.append_nil, List.append_assoc]
    exact text_matchAt_behind_space u x y fuel b.length
  rwa [foundAfter_nil hconsumes, List.append_nil, List.append_nil] at hsplit

/-- The keywords of two texts with three spaces between them are those of the first, then those of the second. -/
theorem map_text_scan_append_spaces (a b : Text) :
    (keyword.scan (a ++ ' ' :: ' ' :: ' ' :: b)).map Match.text =
      (keyword.scan a).map Match.text ++ (keyword.scan b).map Match.text := by
  have hconsumes : keyword.consumes := by decide
  generalize hfuel : (a ++ ' ' :: ' ' :: ' ' :: b).length = fuel
  have hbefore : keyword.foundAfter fuel [] (a ++ ' ' :: ' ' :: ' ' :: b) =
      keyword.foundAfter a.length [] a ++ keyword.foundAfter fuel a (' ' :: ' ' :: ' ' :: b) :=
    foundAfter_append hconsumes fun x y _ _ => text_matchAt_append_spaces x y (' ' :: b) _ _
  have hspaces : keyword.foundAfter fuel a ([' ', ' ', ' '] ++ b) =
      keyword.foundAfter fuel (a ++ [' ', ' ', ' ']) b := by
    refine foundAfter_passed fun x y hxy hy => ?_
    obtain ⟨c, y, rfl⟩ := List.exists_cons_of_ne_nil hy
    have hc : c ∈ [' ', ' ', ' '] := hxy ▸ List.mem_append_right x List.mem_cons_self
    obtain rfl : c = ' ' := by simpa using hc
    exact matchAt_keyword_space _ _ fuel
  have hafter := foundAfter_behind_space (a ++ [' ', ' ']) b fuel
  rw [List.append_assoc] at hafter
  calc (keyword.scan (a ++ ' ' :: ' ' :: ' ' :: b)).map Match.text
      = keyword.foundAfter fuel [] (a ++ ' ' :: ' ' :: ' ' :: b) := by rw [map_text_scan, hfuel]
    _ = keyword.foundAfter a.length [] a ++ keyword.foundAfter fuel (a ++ [' ', ' ', ' ']) b := by
      rw [hbefore, ← hspaces]
      rfl
    _ = (keyword.scan a).map Match.text ++ (keyword.scan b).map Match.text := by
      rw [map_text_scan, ← hafter]
      rfl

end RequirementLevel

end DraftLint
