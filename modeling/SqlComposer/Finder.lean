import SqlComposer.Association.Plan

/-!
# Finders

A method name such as `findByTitle` or `findAllByTitleOrStatus` says what to look for: `findBy` asks
for one record and `findAllBy` for all, and after it come fields joined by `And` or `Or`, each of
which takes one argument.
-/

namespace SqlComposer

/-- Why a method name finds nothing. -/
inductive FinderError where
  | notAFinder (method : Text)
  | argumentCount (method : Text) (expected got : Nat)
deriving DecidableEq

def FinderError.message : FinderError → Text
  | .notAFinder method => Text.ticked method ++ " is not a findBy/findAllBy method"
  | .argumentCount method expected got =>
    Text.ticked method ++ " expects " ++ Text.ofNat expected ++ " argument(s), got " ++
      Text.ofNat got

/-- How many records are asked for. -/
inductive FinderKind where
  | first
  | all
deriving DecidableEq

/-- What a method name asks for. -/
structure Finder where
  kind : FinderKind
  /-- The fields in snake case, without alias. -/
  fields : List Text
  conditions : Condition

namespace Finder

/-- The kind of a finder and what follows it in the name. -/
def kindOf (method : Text) : Option (FinderKind × Text) :=
  let lower := Text.asciiLower method
  if List.isPrefixOf "findallby" lower then some (.all, method.drop 9)
  else if List.isPrefixOf "findby" lower then some (.first, method.drop 6)
  else none

/-- Reads a method name; the argument of each field is compared with it under the alias. -/
def parse (method label : Text) (arguments : List Value) : Except FinderError Finder :=
  match kindOf method with
  | none => .error (.notAFinder method)
  | some (kind, rest) =>
    let snake := Text.snakeCase rest
    if snake.isEmpty then .error (.notAFinder method)
    else
      let either := Text.has "_or_" snake
      let fields := Text.pieces (if either then "_or_" else "_and_" : Text) snake
      if arguments.length ≠ fields.length then
        .error (.argumentCount method fields.length arguments.length)
      else
        let entries : List (Text × Operand) := (fields.zip arguments).map fun p =>
          (Field.qualify label p.1, .compare (.one p.2))
        let conditions := Condition.entries entries
        .ok ⟨kind, fields, if either then Condition.connect "OR" conditions else conditions⟩

/-- The query of a finder. -/
def query (f : Finder) : Query :=
  { conditions := f.conditions
    limit := match f.kind with
      | .first => some 1
      | .all => none }

end Finder

/-- The selection that a method name asks for. -/
def Source.findBy (s : Source) (m : Model) (method : Text) (arguments : List Value) :
    ExceptT FinderError Render Text := do
  let finder ← ExceptT.mk (pure (Finder.parse method m.aliasName arguments))
  let fields ← s.fields m none [] true
  s.selectModel m { finder.query with fields }

end SqlComposer
