import SqlTree.Build.Expression
import SqlTree.Proofs.Render.Congruence

/-!
# Expressions as they are read

An expression is a row of operands, operators and parentheses.  A reader binds the sign of a
negative tightest, then products, sums, comparisons, `not`, `and` and `or`, and takes operations of
one tightness from the left (`Reads`).  A row of words has at most one reading (`Reads.unique`): the
one that is found from left to right with a stack of open parentheses.  A formula is the reading of
its own row if its parts are tight enough for their places (`reads_iff_grouped`).
-/

namespace SqlTree

/-- The operators whose outcome is a truth value in all dialects that have them. -/
def Operator.comparisons : List Operator := [
  .eq, .doubleEq, .ne, .notEqual, .gt, .gte, .lt, .lte, .isIn, .notIn, .is, .isNot, .like,
  .notLike, .ilike, .notIlike, .textMatch, .notLt, .notGt, .nullSafeEq, .regexp, .isDistinctFrom,
  .isNotDistinctFrom, .between, .betweenSymmetric, .notBetween]

namespace Expression

/-- What stands between two operands. -/
inductive Joint where
  | operator (o : Operator)
  | and
  | or

/-- What stands in front of an operand. -/
inductive Sign where
  | minus
  | not

inductive Word where
  | operand (n : Node)
  | joint (j : Joint)
  | opening
  | closing

/-- How loose a sign binds. -/
def Sign.level : Sign → Nat
  | .minus => 1
  | .not => 5

/-- How loose an operation binds, if all dialects agree on it. -/
def Joint.level? : Joint → Option Nat
  | .operator .mul => some 2
  | .operator .div => some 2
  | .operator .add => some 3
  | .operator .sub => some 3
  | .operator o => if o ∈ Operator.comparisons then some 4 else none
  | .and => some 6
  | .or => some 7

/-- How loose anything binds at most. -/
def loosest : Nat := 7

/-- A sign as a word: the hyphen is the same in front of an operand and between two. -/
def Sign.joint : Sign → Joint
  | .minus => .operator .sub
  | .not => .operator .not

def Joint.sign? : Joint → Option Sign
  | .operator .sub => some .minus
  | .operator .not => some .not
  | _ => none

@[simp] theorem Sign.sign?_joint (s : Sign) : s.joint.sign? = some s := by
  cases s <;> rfl

/-- No operation binds like a sign. -/
theorem Joint.level_ne {j : Joint} {k : Nat} (h : j.level? = some k) (s : Sign) : s.level ≠ k := by
  rintro rfl
  revert h
  unfold level?
  split <;> try split
  all_goals cases s <;> simp [Sign.level]

inductive Formula where
  | operand (n : Node)
  | parens (f : Formula)
  | signed (s : Sign) (f : Formula)
  | joined (j : Joint) (f g : Formula)

/-- What a row of words says, read as something that binds no looser than a number tells. -/
inductive Reads : Nat → List Word → Formula → Prop
  | operand (n : Node) : Reads 0 [.operand n] (.operand n)
  | parens {ts : List Word} {f : Formula} (h : Reads loosest ts f) :
    Reads 0 (.opening :: (ts ++ [.closing])) (.parens f)
  | signed {k : Nat} {s : Sign} {ts : List Word} {f : Formula} (hs : s.level = k)
    (h : Reads k ts f) : Reads k (.joint s.joint :: ts) (.signed s f)
  | joined {k : Nat} {j : Joint} {ts us : List Word} {f g : Formula}
    (hj : j.level? = some (k + 1)) (h : Reads (k + 1) ts f) (h' : Reads k us g) :
    Reads (k + 1) (ts ++ .joint j :: us) (.joined j f g)
  | looser {k : Nat} {ts : List Word} {f : Formula} (h : Reads k ts f) : Reads (k + 1) ts f

theorem Reads.mono {k m : Nat} {ts : List Word} {f : Formula} (h : Reads k ts f) (hkm : k ≤ m) :
    Reads m ts f := by
  induction hkm with
  | refl => exact h
  | step _ ih => exact ih.looser

/-- Words with the blanks around them, as they are written; an operand below a node of some kind. -/
inductive Span where
  | operand (parent : Option Kind) (n : Node)
  | joint (j : Joint)
  | sign (s : Sign)
  | opening
  | closing

namespace Span

def word : Span → Word
  | .operand _ n => .operand n
  | .joint j => .joint j
  | .sign s => .joint s.joint
  | .opening => .opening
  | .closing => .closing

def pieces (d : Dialect) : Span → List Piece
  | .operand parent n => n.piecesIn d parent
  | .joint (.operator o) => Layout.sql " " ++ Layout.sql o.symbol ++ Layout.sql " "
  | .joint .and => Layout.sql " and "
  | .joint .or => Layout.sql " or "
  | .sign .minus => Layout.sql "-"
  | .sign .not => Layout.sql "not" ++ Layout.sql " "
  | .opening => Layout.sql "("
  | .closing => Layout.sql ")"

theorem pieces_binary (d : Dialect) (l : Node) (o : Operator) (r : Node) (parent : Option Kind) :
    (Node.binary l o r).piecesIn d parent = l.piecesIn d (some .binaryOperation) ++
      (pieces d (.joint (.operator o)) ++ r.piecesIn d (some .binaryOperation)) := by
  rw [Node.binary, Node.piecesIn_mk, Shape.map_eq_each, ← List.append_assoc]
  simp only [pieces, ← List.append_assoc]
  rfl

end Span

/-- What was read since a parenthesis was opened: what awaits an operand of each tightness, and the
operand that was read last. -/
structure Frame where
  pending : Nat → Formula → Formula := fun _ => id
  last : Option Formula := none

namespace Frame

/-- What an operand becomes as a part of all that binds no looser than a number tells. -/
def upTo (r : Frame) : Nat → Formula → Formula
  | 0, f => r.pending 0 f
  | k + 1, f => r.pending (k + 1) (r.upTo k f)

def take (r : Frame) (f : Formula) : Frame := { r with last := some f }

/-- A sign awaits its operand, after what awaited an operand as tight as its own. -/
def sign (r : Frame) (s : Sign) : Frame :=
  { r with
    pending := fun i => if i = s.level then r.pending i ∘ .signed s else r.pending i }

/-- An operand with all that binds no looser awaits the other operand. -/
def join (r : Frame) (j : Joint) (k : Nat) (f : Formula) : Frame where
  pending := fun i => if i < k then id else if i = k then .joined j (r.upTo k f) else r.pending i

def joint (r : Frame) (j : Joint) : Frame :=
  match r.last with
  | none => j.sign?.elim r r.sign
  | some f => j.level?.elim r fun k => r.join j k f

end Frame

def advance : List Frame → Word → List Frame
  | r :: rs, .operand n => r.take (.operand n) :: rs
  | r :: rs, .joint j => r.joint j :: rs
  | rs, .opening => {} :: rs
  | r :: r' :: rs, .closing =>
    (r.last.elim r' fun f => r'.take (.parens (r.upTo loosest f))) :: rs
  | rs, _ => rs

def run (rs : List Frame) (ts : List Word) : List Frame := ts.foldl advance rs

theorem run_append (rs : List Frame) (ts us : List Word) :
    run rs (ts ++ us) = run (run rs ts) us := List.foldl_append

theorem run_cons (rs : List Frame) (t : Word) (ts : List Word) :
    run rs (t :: ts) = run (advance rs t) ts := rfl

namespace Frame

/-- Frames in which nothing awaits what is about to be read, but for signs like its own. -/
structure Ready (k : Nat) (r : Frame) : Prop where
  last : r.last = none
  tighter : ∀ i < k, r.pending i = id
  same : (∀ s : Sign, s.level ≠ k) → r.pending k = id

/-- What reading a formula does to a frame. -/
structure Took (k : Nat) (f : Formula) (r r' : Frame) : Prop where
  value : ∃ l, r'.last = some l ∧ r'.upTo k l = r.pending k f
  looser : ∀ i, k < i → r'.pending i = r.pending i

theorem ready_empty (k : Nat) : Ready k {} := ⟨rfl, fun _ _ => rfl, fun _ => rfl⟩

section Pending

variable (r : Frame) (s : Sign) (j : Joint) (f : Formula) {i k : Nat}

theorem pending_sign_self : (r.sign s).pending s.level = r.pending s.level ∘ .signed s := if_pos rfl

theorem pending_sign_of_ne (h : i ≠ s.level) : (r.sign s).pending i = r.pending i := if_neg h

theorem pending_join_of_lt (h : i < k) : (r.join j k f).pending i = id := if_pos h

theorem pending_join_self : (r.join j k f).pending k = .joined j (r.upTo k f) := by
  simp [join]

theorem pending_join_of_gt (h : k < i) : (r.join j k f).pending i = r.pending i := by
  simp [join, Nat.lt_asymm h, Nat.ne_of_gt h]

end Pending

variable {k : Nat} {r : Frame}

theorem Ready.pred (h : r.Ready (k + 1)) : r.Ready k where
  last := h.last
  tighter i hi := h.tighter i (Nat.lt_succ_of_lt hi)
  same _ := h.tighter k (Nat.lt_succ_self k)

theorem Ready.sign (h : r.Ready k) {s : Sign} (hs : s.level = k) : (r.sign s).Ready k where
  last := h.last
  tighter i hi := by
    rw [pending_sign_of_ne r s (hs ▸ Nat.ne_of_lt hi), h.tighter i hi]
  same hk := absurd hs (hk s)

theorem ready_join (r : Frame) (j : Joint) (f : Formula) : (r.join j (k + 1) f).Ready k where
  last := rfl
  tighter _ hi := pending_join_of_lt r j f (Nat.lt_succ_of_lt hi)
  same _ := pending_join_of_lt r j f (Nat.lt_succ_self k)

end Frame

open Frame

/-- What reading words of a formula does to the innermost frame. -/
def Runs (k : Nat) (ts : List Word) (f : Formula) : Prop :=
  ∀ r rs, Ready k r → ∃ r', run (r :: rs) ts = r' :: rs ∧ Took k f r r'

theorem Reads.runs {k : Nat} {ts : List Word} {f : Formula} (h : Reads k ts f) : Runs k ts f := by
  induction h with
  | operand n => exact fun r rs _ => ⟨r.take (.operand n), rfl, ⟨_, rfl, rfl⟩, fun _ _ => rfl⟩
  | @parens ts f h ih =>
    intro r rs _
    obtain ⟨r', hrun, ⟨l, hl, hvalue⟩, -⟩ := ih {} (r :: rs) (ready_empty _)
    refine ⟨r.take (.parens f), ?_, ⟨_, rfl, rfl⟩, fun _ _ => rfl⟩
    rw [run_cons, run_append]
    show run (run ({} :: r :: rs) ts) [.closing] = _
    rw [hrun]
    show (r'.last.elim r fun l => r.take (.parens (r'.upTo loosest l))) :: rs = _
    rw [hl, Option.elim_some, hvalue]
    rfl
  | @signed k s ts f hs h ih =>
    intro r rs hr
    have hstep : r.joint s.joint = r.sign s := by
      rw [Frame.joint, hr.last, Sign.sign?_joint]
      rfl
    obtain ⟨r', hrun, ⟨l, hl, hvalue⟩, hlooser⟩ := ih (r.sign s) rs (hr.sign hs)
    refine ⟨r', ?_, ⟨l, hl, ?_⟩, fun i hi => ?_⟩
    · rw [run_cons]
      show run (r.joint s.joint :: rs) ts = _
      rw [hstep, hrun]
    · rw [hvalue, ← hs, pending_sign_self]
      rfl
    · rw [hlooser i hi, pending_sign_of_ne r s (hs ▸ Nat.ne_of_gt hi)]
  | @joined k j ts us f g hj h h' ih ih' =>
    intro r rs hr
    obtain ⟨r₁, hrun₁, ⟨l, hl, hvalue⟩, hlooser₁⟩ := ih r rs hr
    have hsame : r.pending (k + 1) = id := hr.same (Joint.level_ne hj)
    have hstep : r₁.joint j = r₁.join j (k + 1) l := by
      rw [Frame.joint, hl, hj]
      rfl
    obtain ⟨r₂, hrun₂, ⟨m, hm, hvalue'⟩, hlooser₂⟩ := ih' _ rs (ready_join r₁ j l)
    refine ⟨r₂, ?_, ⟨m, hm, ?_⟩, fun i hi => ?_⟩
    · rw [run_append, hrun₁, run_cons]
      show run (r₁.joint j :: rs) us = _
      rw [hstep, hrun₂]
    · rw [upTo, hvalue', hlooser₂ _ (Nat.lt_succ_self k), pending_join_self, hvalue, hsame,
        pending_join_of_lt r₁ j l (Nat.lt_succ_self k)]
      rfl
    · rw [hlooser₂ i (Nat.lt_of_succ_lt hi), pending_join_of_gt r₁ j l hi, hlooser₁ i hi]
  | @looser k ts f h ih =>
    intro r rs hr
    obtain ⟨r', hrun, ⟨l, hl, hvalue⟩, hlooser⟩ := ih r rs hr.pred
    refine ⟨r', hrun, ⟨l, hl, ?_⟩, fun i hi => hlooser i (Nat.lt_of_succ_lt hi)⟩
    rw [upTo, hvalue, hlooser _ (Nat.lt_succ_self k), hr.tighter k (Nat.lt_succ_self k)]
    rfl

/-- A row of words is read in one way. -/
theorem Reads.unique {k : Nat} {ts : List Word} {f g : Formula} (h : Reads k ts f)
    (h' : Reads k ts g) : f = g := by
  obtain ⟨r, hrun, ⟨l, hl, hf⟩, -⟩ := h.runs {} [] (ready_empty k)
  obtain ⟨r', hrun', ⟨l', hl', hg⟩, -⟩ := h'.runs {} [] (ready_empty k)
  rw [hrun] at hrun'
  cases hrun'
  cases hl.symm.trans hl'
  exact hf.symm.trans hg

namespace Formula

/-- The row of words as which a formula is written. -/
def words : Formula → List Word
  | .operand n => [.operand n]
  | .parens f => .opening :: (f.words ++ [.closing])
  | .signed s f => .joint s.joint :: f.words
  | .joined j f g => f.words ++ .joint j :: g.words

/-- How loose the outermost operation of a formula binds. -/
def level : Formula → Nat
  | .operand _ => 0
  | .parens _ => 0
  | .signed s _ => s.level
  | .joined j _ _ => j.level?.getD 0

/-- Formulas whose parts are tight enough for their places. -/
inductive Grouped : Formula → Prop
  | operand (n : Node) : Grouped (.operand n)
  | parens {f : Formula} (h : Grouped f) (hf : f.level ≤ loosest) : Grouped (.parens f)
  | signed {s : Sign} {f : Formula} (h : Grouped f) (hf : f.level ≤ s.level) :
    Grouped (.signed s f)
  | joined {j : Joint} {k : Nat} {f g : Formula} (hj : j.level? = some (k + 1)) (h : Grouped f)
    (h' : Grouped g) (hf : f.level ≤ k + 1) (hg : g.level ≤ k) : Grouped (.joined j f g)

theorem level_joined {j : Joint} {k : Nat} (hj : j.level? = some k) (f g : Formula) :
    (joined j f g).level = k := by
  rw [level, hj]
  rfl

theorem Grouped.reads {f : Formula} (h : f.Grouped) : Reads f.level f.words f := by
  induction h with
  | operand n => exact .operand n
  | parens h hf ih => exact .parens (ih.mono hf)
  | signed h hf ih => exact .signed rfl (ih.mono hf)
  | @joined j k f g hj h h' hf hg ih ih' =>
    rw [level_joined hj]
    exact .joined hj (ih.mono hf) (ih'.mono hg)

end Formula

theorem Reads.grouped {k : Nat} {ts : List Word} {f : Formula} (h : Reads k ts f) :
    f.Grouped ∧ f.level ≤ k ∧ f.words = ts := by
  induction h with
  | operand n => exact ⟨.operand n, Nat.le_refl _, rfl⟩
  | parens h ih =>
    obtain ⟨hgrouped, hlevel, rfl⟩ := ih
    exact ⟨.parens hgrouped hlevel, Nat.le_refl _, rfl⟩
  | signed hs h ih =>
    obtain ⟨hgrouped, hlevel, rfl⟩ := ih
    exact ⟨.signed hgrouped (hs ▸ hlevel), Nat.le_of_eq hs, rfl⟩
  | @joined k j ts us f g hj h h' ih ih' =>
    obtain ⟨hgrouped, hlevel, rfl⟩ := ih
    obtain ⟨hgrouped', hlevel', rfl⟩ := ih'
    have hjoined := Formula.level_joined hj f g
    exact ⟨.joined hj hgrouped hgrouped' hlevel hlevel', Nat.le_of_eq hjoined, rfl⟩
  | looser h ih => exact ⟨ih.1, Nat.le_succ_of_le ih.2.1, ih.2.2⟩

/-- The readings of a row are the formulas that are written as this row and stand on their own. -/
theorem reads_iff_grouped {k : Nat} {ts : List Word} {f : Formula} :
    Reads k ts f ↔ f.Grouped ∧ f.level ≤ k ∧ f.words = ts := by
  constructor
  · exact Reads.grouped
  · rintro ⟨h, hk, rfl⟩
    exact h.reads.mono hk

end Expression

end SqlTree
