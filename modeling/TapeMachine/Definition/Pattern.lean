import TapeMachine.Text.CodePoint

set_option autoImplicit false

namespace TapeMachine

inductive Part where
  | symbols
  | blank
  | memory
  | start
  | id
  | acceptance
  | source
  | inputs
  | output
  | action
  | target
deriving DecidableEq

abbrev Groups := List (Part × Text)

inductive Pattern where
  | one (kind : CodePoint → Bool)
  | run (kind : CodePoint → Bool)
  | either (first second : Pattern)
  | perhaps (p : Pattern)
  | named (part : Part) (p : Pattern)
  | both (first second : Pattern)

structure Way where
  taken : Text
  rest : Text
  groups : Groups

namespace Pattern

def many (kind : CodePoint → Bool) : Pattern := .both (.one kind) (.run kind)

/-- The code points of a word one after the other, each by a test of its own. -/
def word (test : Char → CodePoint → Bool) (first : Char) : List Char → Pattern
  | [] => .one (test first)
  | c :: rest => .both (.one (test first)) (word test c rest)

def Matches : Pattern → Text → Groups → Prop
  | .one kind, t, groups => (∃ c, kind c = true ∧ t = [c]) ∧ groups = []
  | .run kind, t, groups => (∀ c ∈ t, kind c = true) ∧ groups = []
  | .either first second, t, groups => first.Matches t groups ∨ second.Matches t groups
  | .perhaps p, t, groups => p.Matches t groups ∨ t = [] ∧ groups = []
  | .named part p, t, groups => ∃ inner, p.Matches t inner ∧ groups = (part, t) :: inner
  | .both first second, t, groups => ∃ u v before after,
      first.Matches u before ∧ second.Matches v after ∧ t = u ++ v ∧ groups = before ++ after

def cuts (kind : CodePoint → Bool) : Text → List (Text × Text)
  | [] => [([], [])]
  | c :: t => if kind c then (cuts kind t).map (fun cut => (c :: cut.1, cut.2)) ++ [([], c :: t)] else [([], c :: t)]

def ways : Pattern → Text → List Way
  | .one _, [] => []
  | .one kind, c :: t => if kind c then [⟨[c], t, []⟩] else []
  | .run kind, t => (cuts kind t).map fun cut => ⟨cut.1, cut.2, []⟩
  | .either first second, t => first.ways t ++ second.ways t
  | .perhaps p, t => p.ways t ++ [⟨[], t, []⟩]
  | .named part p, t => (p.ways t).map fun way => { way with groups := (part, way.taken) :: way.groups }
  | .both first second, t => (first.ways t).flatMap fun front =>
      (second.ways front.rest).map fun back => ⟨front.taken ++ back.taken, back.rest, front.groups ++ back.groups⟩

end Pattern

end TapeMachine
