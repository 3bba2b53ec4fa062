import Calculator.Window.Session

/-!
# What a history of actions says

What a session shows is told here from the actions that led to it, without its panels:

* `SymbolStack` -- the symbols entered with keys and buttons, as a stack;
* `Session.evaluated` -- the entries evaluated since the results were last cleared, and
  `ExpressionPanel.Shows`, what is shown of them;
* `Session.calculated` -- the operations calculated since the window was last reset, and
  `OperationPanel.Shows`, what is shown of them.
-/

namespace Calculator

/-! ## 1. Kinds of actions -/

namespace Action

/-- The action does not type into the entry. -/
def TypesNothing (a : Action) : Prop :=
  ∀ text, a ≠ .write .entry text

/-- The action evaluates the entry. -/
def evaluates : Action → Bool
  | .press .equals => true
  | .enter => true
  | _ => false

/-- The action clears what is shown for the entry. -/
def clearsResults : Action → Bool
  | .press .clearResults => true
  | .press .reset => true
  | _ => false

/-- The action calculates the operation. -/
def calculates : Action → Bool
  | .press .calculate => true
  | _ => false

/-- The action clears what is shown for the operation. -/
def resets : Action → Bool
  | .press .reset => true
  | _ => false

/-- The action neither computes nor clears anything that is shown. -/
def keepsOutputs (a : Action) : Bool :=
  !(a.evaluates || a.clearsResults || a.calculates || a.resets)

end Action

/-! ## 2. Symbols -/

/-- Symbols that are entered, the last one first. -/
abbrev SymbolStack := List Char

namespace SymbolStack

/-- The stack after an action: a key puts its symbol on top, DEL takes the top off, and what clears
    the entry takes all off. -/
def act (stack : SymbolStack) : Action → SymbolStack
  | .press (.key k) => k.symbol :: stack
  | .press .delete => stack.tail
  | .press .clearEntry => []
  | .press .reset => []
  | .escape => []
  | _ => stack

/-- The stack after actions. -/
def run (stack : SymbolStack) (actions : List Action) : SymbolStack :=
  actions.foldl act stack

/-- The symbols in the order in which they were entered. -/
def text (stack : SymbolStack) : Text :=
  stack.reverse

end SymbolStack

/-! ## 3. Outcomes -/

namespace Session

variable {α : Type}

/-- What `view` shows of the session before each action that counts, where no action that clears
    comes after it. -/
def recorded (counts clears : Action → Bool) (view : Session → α) (s : Session) :
    List Action → List α
  | [] => []
  | a :: actions =>
      let later := recorded counts clears view (s.act a) actions
      if counts a && !actions.any clears then view s :: later else later

/-- The entries evaluated since the results were last cleared. -/
def evaluated (s : Session) (actions : List Action) : List Text :=
  recorded Action.evaluates Action.clearsResults (fun s => s.window.expression.entry) s actions

/-- The operation panels as they stood when calculated, since the window was last reset. -/
def calculated (s : Session) (actions : List Action) : List OperationPanel :=
  recorded Action.calculates Action.resets (fun s => s.window.operation) s actions

end Session

namespace Entry

/-- The result text of an entry that has a value. -/
def result? (t : Text) : Option Text :=
  (Expression.explain t).toOption.map fun (x, _) => x.resultText

/-- The working of an entry that has a value. -/
def working? (t : Text) : Option Working :=
  (Expression.explain t).toOption.map fun (_, working) => working

/-- What is said of an entry that has no value; one without symbols is told apart. -/
def complaint? (t : Text) : Option Text :=
  match Expression.explain t with
  | .ok _ => none
  | .error e => some (if t.clean.isEmpty then "Entrée vide".toList else e.message)

theorem told_of_explain_eq_ok {t : Text} {x : Double} {working : Working}
    (h : Expression.explain t = .ok (x, working)) :
    result? t = some x.resultText ∧ working? t = some working ∧ complaint? t = none := by
  unfold result? working? complaint?
  rw [h]
  exact ⟨rfl, rfl, rfl⟩

theorem told_of_explain_eq_error {t : Text} {e : Error} (h : Expression.explain t = .error e) :
    result? t = none ∧ working? t = none ∧
      complaint? t = some (if t.clean.isEmpty then "Entrée vide".toList else e.message) := by
  unfold result? working? complaint?
  rw [h]
  exact ⟨rfl, rfl, rfl⟩

/-- An entry with a working has a value, explained by the working. -/
theorem exists_explain_of_working? {t : Text} {working : Working} (h : working? t = some working) :
    ∃ x, Expression.explain t = .ok (x, working) := by
  cases hexplain : Expression.explain t with
  | error e =>
      rw [(told_of_explain_eq_error hexplain).2.1] at h
      exact nomatch h
  | ok value =>
      rw [(told_of_explain_eq_ok hexplain).2.1] at h
      obtain rfl : value.2 = working := Option.some.inj h
      exact ⟨value.1, rfl⟩

end Entry

/-- What the panel shows of the entries evaluated: the result of the last one that has a value, and
    of the last one either the working or what is wrong with it. -/
structure ExpressionPanel.Shows (p : ExpressionPanel) (evaluated : List Text) : Prop where
  result : p.result = ((evaluated.filterMap Entry.result?).getLast?).getD []
  error : p.error = (evaluated.getLast?.bind Entry.complaint?).getD []
  working : p.working = (evaluated.getLast?.bind Entry.working?).getD .empty

/-- What the panel shows of the operations calculated: the outcome of the last one, as its operands
    and its operator were then. -/
def OperationPanel.Shows (p : OperationPanel) (calculated : List OperationPanel) : Prop :=
  match calculated.getLast? with
  | none => p.result = [] ∧ p.error = []
  | some q =>
      match q.outcome with
      | .ok text => p.result = text ∧ p.error = []
      | .error message => p.result = [] ∧ p.error = message

/-- What the panel shows of outcomes. -/
def ExpressionPanel.outputs (p : ExpressionPanel) : Text × Text × Working :=
  (p.result, p.error, p.working)

/-- What the panel shows of outcomes. -/
def OperationPanel.outputs (p : OperationPanel) : Text × Text :=
  (p.result, p.error)

/-- What a window shows of the outcomes of both panels. -/
def Window.outputs (w : Window) : (Text × Text × Working) × (Text × Text) :=
  (w.expression.outputs, w.operation.outputs)

end Calculator
