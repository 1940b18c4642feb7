import SqlComposer.Proofs.Formula
import SqlComposer.Proofs.SolidTokens

/-!
# Tokens of written formulas

A written formula is cut into tokens piece by piece, if its leaves are: no token goes across from one
piece into the next.
-/

namespace SqlComposer

open CharClass
open Piece (textOf leavesOf)
open Token (blankToken)

/-! ### Tokens of pieces -/

def Joint.kind : Joint → TokenKind
  | .and | .or | .xor => .ident
  | .ampersands | .bars => .operator

namespace Piece

def tokens (d : Dialect) : Piece → List Token
  | .leaf t => Token.tokenize d t
  | .opening => [⟨.lParen, ['(']⟩]
  | .closing => [⟨.rParen, [')']⟩]
  | .not => [⟨.ident, "NOT"⟩, blankToken]
  | .joint j => [blankToken, ⟨j.kind, j.word⟩, blankToken]

/-- The tokens of a row of pieces. -/
def tokensOf (d : Dialect) (ps : List Piece) : List Token :=
  ps.flatMap (tokens d)

theorem textOf_tokens (d : Dialect) (p : Piece) : Token.textOf (p.tokens d) = p.text := by
  cases p with
  | leaf t => exact Token.textOf_tokenize d t
  | joint j => simp [tokens, blankToken, text]
  | _ => rfl

theorem textOf_tokensOf (d : Dialect) (ps : List Piece) :
    Token.textOf (tokensOf d ps) = textOf ps := by
  induction ps with
  | nil => rfl
  | cons p ps ih =>
    have hp : Token.textOf (tokensOf d (p :: ps)) =
        Token.textOf (p.tokens d) ++ Token.textOf (tokensOf d ps) := Token.textOf_append _ _
    rw [hp, textOf_tokens, ih]
    rfl

@[simp] theorem tokensOf_append (d : Dialect) (ps qs : List Piece) :
    tokensOf d (ps ++ qs) = tokensOf d ps ++ tokensOf d qs :=
  List.flatMap_append

end Piece

open Piece (tokensOf)

/-! ### Texts between parentheses and connectives -/

namespace Solid

variable {d : Dialect} {ts us : List Token}

theorem ends_joint (d : Dialect) (j : Joint) (rest : Text) :
    (⟨j.kind, j.word⟩ : Token).Ends d (' ' :: rest) := by
  refine ends_word ?_ ?_ rest
  · cases j <;> cases d <;> exact ⟨_, _, rfl, rfl⟩
  · cases j <;> cases d <;> exact ⟨_, rfl, rfl⟩

theorem ends_not (d : Dialect) (rest : Text) :
    (⟨.ident, "NOT"⟩ : Token).Ends d (' ' :: rest) := by
  refine ends_word ?_ ?_ rest
  · cases d <;> exact ⟨_, _, rfl, rfl⟩
  · cases d <;> exact ⟨_, rfl, rfl⟩

theorem enclosed (h : Solid d ts) : Solid d (⟨.lParen, ['(']⟩ :: ts ++ [⟨.rParen, [')']⟩]) where
  head := ⟨'(', rfl, rfl⟩
  separate _ := by
    refine ⟨⟨'(', [], rfl, by cases d <;> rfl⟩, Token.Separate.append_iff.2 ⟨h.separate ?_, ?_, trivial⟩⟩
    · rintro _ ⟨⟩
      exact .inr rfl
    · exact ⟨')', [], rfl, by cases d <;> rfl⟩

theorem not (h : Solid d ts) : Solid d (⟨.ident, "NOT"⟩ :: blankToken :: ts) where
  head := ⟨'N', rfl, rfl⟩
  separate hr := ⟨ends_not d _, ends_blank (h.head_append _), h.separate hr⟩

theorem join (ht : Solid d ts) (j : Joint) (hu : Solid d us) :
    Solid d (ts ++ [blankToken, ⟨j.kind, j.word⟩, blankToken] ++ us) := by
  refine ht.join_word hu (ends_joint d j) ?_
  cases j <;> exact ⟨_, rfl, rfl⟩

end Solid

/-- A row of pieces that can be read is cut into the tokens of its pieces. -/
theorem Reads.solid {r : Reading} {ps : List Piece} {f : Formula} {d : Dialect}
    (h : Reads r ps f) (hl : ∀ t ∈ leavesOf ps, Solid d (Token.tokenize d t)) :
    Solid d (tokensOf d ps) := by
  induction h with
  | leaf t => simpa [tokensOf, Piece.tokens] using hl t (by simp [leavesOf])
  | @enclosed ps f _ ih =>
    have hps := (ih fun t ht => hl t (by simpa [leavesOf] using ht)).enclosed
    simpa [tokensOf, Piece.tokens] using hps
  | not _ ih =>
    have hps := (ih fun t ht => hl t (by simpa [leavesOf] using ht)).not
    simpa [tokensOf, Piece.tokens] using hps
  | operand _ ih => exact ih hl
  | join j _ _ ihf ihg =>
    simp only [Piece.leavesOf_append, List.forall_mem_append] at hl
    have hps := ihf hl.1
    have hqs := ihg hl.2
    simpa [tokensOf, Piece.tokens] using hps.join j hqs

end SqlComposer
