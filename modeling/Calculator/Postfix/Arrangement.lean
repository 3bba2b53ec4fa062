import Calculator.Postfix.Contents

/-!
# Where the elements of a form come from

A form does not say which token an element has been, and equal operators look alike. So each token
is given its place in the list, and an arrangement of a form lists the tokens with their places in
the order in which their elements stand (`Postfix.IsArrangement`). One condition says both that the
numbers keep their order and that no operator comes before a number that it followed: what stands
before a number stood before it already (`Placed.Precedes`).
-/

namespace Calculator

/-- A token with its place in a list. -/
abbrev Placed := Token × Nat

/-- If `b` is a number, `a` has its place before it. -/
def Placed.Precedes (a b : Placed) : Prop :=
  b.1.isNumber = true → a.2 < b.2

namespace Token

/-- The element that a token becomes; a bracket becomes none. -/
def element? : Token → Option Element
  | .number _ t => (Number.ofText? t).map .number
  | .operator op => some (.operator op)
  | _ => none

/-- The tokens that are no brackets with their places, where the first token has the place `n`. -/
def placed (n : Nat) (ts : List Token) : List Placed :=
  (ts.zipIdx n).filter fun p => !p.1.isBracket

end Token

namespace Postfix

/-- The form holds each token that is no bracket once, and `order` lists them as their elements
    stand: what stands before a number stood before it already. -/
structure IsArrangement (ts : List Token) (es : Postfix) (order : List Placed) : Prop where
  perm : order.Perm (Token.placed 0 ts)
  elements : (order.map fun p => p.1.element?) = es.map some
  precedes : order.Pairwise Placed.Precedes

end Postfix

end Calculator
