/-!
# Log lines

What the machine reports about itself while it runs. A line never changes what happens next: it is
kept beside the value that a step computes (`Logged`) or in the log of the link that took the step.
-/

namespace RadioBoot

/-- How much a line matters. -/
inductive Level where
  | error
  | warn
  | info
  | debug
deriving DecidableEq, Repr

namespace Level

/-- The word that a log writes in front of the line. -/
def name : Level → String
  | .error => "ERROR"
  | .warn => "WARN"
  | .info => "INFO"
  | .debug => "DEBUG"

end Level

/-- One line of the log. -/
structure Line where
  level : Level
  text : String
deriving DecidableEq, Repr

namespace Line

def error (text : String) : Line := ⟨.error, text⟩

def warn (text : String) : Line := ⟨.warn, text⟩

def info (text : String) : Line := ⟨.info, text⟩

def debug (text : String) : Line := ⟨.debug, text⟩

/-- The line as it is printed: the level, then the text. -/
def render (l : Line) : String := l.level.name ++ " " ++ l.text

end Line

/-- A value, and the lines written on the way to it, oldest first. -/
structure Logged (α : Type) where
  value : α
  lines : List Line
deriving DecidableEq, Repr

namespace Logged

/-- A value reached without a word. -/
def silent {α : Type} (a : α) : Logged α := ⟨a, []⟩

@[simp] theorem value_silent {α : Type} (a : α) : (silent a).value = a := rfl
@[simp] theorem lines_silent {α : Type} (a : α) : (silent a).lines = [] := rfl

/-- Change the value and keep the lines. -/
def map {α β : Type} (f : α → β) (x : Logged α) : Logged β := ⟨f x.value, x.lines⟩

@[simp] theorem value_map {α β : Type} (f : α → β) (x : Logged α) :
    (x.map f).value = f x.value := rfl
@[simp] theorem lines_map {α β : Type} (f : α → β) (x : Logged α) : (x.map f).lines = x.lines := rfl

end Logged

end RadioBoot
