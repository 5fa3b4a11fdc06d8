import FunctionGateway.Routing.Pattern

/-!
# Trees of path patterns

A path tree holds the patterns bound so far, sharing common beginnings. A node
has at most one leaf (the pattern that ends there), one branch per literal byte,
and at most one wildcard child: either a parameter, with tails for the literal
texts that may follow it in its segment, or a remainder parameter.

`find` walks a path over the tree. A literal branch is tried before the
wildcard, and a failure further down comes back to the nearest wildcard passed
by. Behind a parameter the first tail that fits is taken for good.

`insert` adds a pattern. It refuses a pattern that ends where another one ends and
a second kind of wildcard at one place. Nodes made before a fault is met stay in the
tree; they carry no leaf. Only a run of literals that ends in a misplaced
remainder is not laid: of such a run the tree keeps its first byte, as a branch
that leads nowhere yet.
-/

namespace FunctionGateway.Routing

open FunctionGateway.Text

/-- The end of a bound pattern: the names of its ordinary parameters and what is
bound to it. -/
structure Leaf (α : Type) where
  params : List Bytes
  value : α

mutual
inductive Node (α : Type) where
  | mk (leaf : Option (Leaf α)) (branches : Branches α) (wild : Wild α)

/-- Literal branches; `visits` counts the insertions that went through one, and `laid`
tells that what follows the byte was laid down. -/
inductive Branches (α : Type) where
  | nil
  | cons (byte : UInt8) (visits : Nat) (laid : Bool) (node : Node α) (others : Branches α)

inductive Wild (α : Type) where
  | absent
  | param (leaf : Option (Leaf α)) (tails : Tails α)
  | remainder (name : Bytes) (leaf : Leaf α)

/-- Literal texts that may follow a parameter in its segment. -/
inductive Tails (α : Type) where
  | nil
  | cons (suffix : Bytes) (node : Node α) (others : Tails α)
end

/-- Why a readable pattern cannot be added to a tree. -/
inductive InsertFault where
  /-- The pattern gets in the way of one that is bound. The tree names that one by
  its text, unless the bytes it finds are the text of nothing. -/
  | conflict (bound : Option String)
  | crowdedSegment
  | misplacedRest
deriving DecidableEq

namespace Node

def empty {α : Type} : Node α := .mk none .nil .absent

def leaf {α : Type} : Node α → Option (Leaf α)
  | .mk leaf _ _ => leaf

end Node

/-! ## Looking up a path -/

/-- A bound value with the names of the wildcards that led to it and the texts they
stand for, in order. -/
structure Capture (α : Type) where
  value : α
  names : List Bytes
  values : List Bytes

def Leaf.capture {α : Type} (leaf : Leaf α) : Capture α :=
  ⟨leaf.value, leaf.params, []⟩

def Capture.withValue {α : Type} (value : Bytes) (capture : Capture α) : Capture α :=
  { capture with values := value :: capture.values }

mutual
def Node.find {α : Type} : Node α → Bytes → Option (Capture α)
  | .mk leaf _ _, [] => leaf.map Leaf.capture
  | .mk _ branches wild, byte :: path =>
      match branches.find byte path with
      | some capture => some capture
      | none => wild.find (byte :: path)

def Branches.find {α : Type} : Branches α → UInt8 → Bytes → Option (Capture α)
  | .nil, _, _ => none
  | .cons own _ _ node others, byte, path =>
      if own = byte then node.find path else others.find byte path

def Wild.find {α : Type} : Wild α → Bytes → Option (Capture α)
  | .absent, _ => none
  | .remainder name leaf, path => some ⟨leaf.value, leaf.params ++ [name], [path]⟩
  | .param leaf tails, path =>
      let segment := path.takeWhile (· ≠ slash)
      match segment, path.dropWhile (· ≠ slash) with
      | [], _ => none
      | _ :: _, [] => tails.find segment [] (leaf.map (·.capture.withValue segment))
      | _ :: _, divider :: after => tails.find (segment ++ [divider]) after none

/-- Take the first tail that ends `segment` and leaves the parameter a byte;
`otherwise` answers if there is none. -/
def Tails.find {α : Type} :
    Tails α → Bytes → Bytes → Option (Capture α) → Option (Capture α)
  | .nil, _, _, otherwise => otherwise
  | .cons suffix node others, segment, after, otherwise =>
      let kept := segment.length - suffix.length
      if suffix.length < segment.length ∧ segment.drop kept = suffix then
        (node.find after).map (·.withValue (segment.take kept))
      else
        others.find segment after otherwise
end

/-! ## Naming what is in the way -/

/-- A step of a walk down a tree. A tree does not keep the names of parameters; a
walk calls them by letters. -/
inductive Step where
  | byte (own : UInt8)
  | param (letter : UInt8)
  | remainder (name : Bytes)

/-- The steps with the first wildcards called by `names`. -/
def Step.spell : List Bytes → List Step → Bytes
  | _, [] => []
  | names, .byte own :: rest => own :: Step.spell names rest
  | [], .param letter :: rest => inBraces [letter] ++ Step.spell [] rest
  | [], .remainder name :: rest => inBraces (star :: name) ++ Step.spell [] rest
  | name :: names, _ :: rest => inBraces name ++ Step.spell names rest

/-- How an insertion came to a node: the steps, last one first, and the number of
parameters among them. -/
structure Trail where
  reversed : List Step
  params : Nat

namespace Trail

def start : Trail := ⟨[], 0⟩

def byte (trail : Trail) (own : UInt8) : Trail :=
  { trail with reversed := .byte own :: trail.reversed }

def bytes (trail : Trail) (text : Bytes) : Trail :=
  { trail with reversed := text.reverse.map .byte ++ trail.reversed }

def param (trail : Trail) : Trail :=
  { reversed := .param (paramLetter trail.params) :: trail.reversed
    params := trail.params + 1 }

def remainder (trail : Trail) (name : Bytes) : Trail :=
  { trail with reversed := .remainder name :: trail.reversed }

/-- The walk reads, without names, as something that ends in `text`. -/
def endsWith (trail : Trail) (text : Bytes) : Bool :=
  text.isSuffixOf (Step.spell [] trail.reversed.reverse)

/-- Go over the parameter that is in the way of another wildcard. One that reads as
what is in front of it is left out. -/
def pastParam (trail : Trail) : Trail :=
  if trail.endsWith (inBraces [paramLetter trail.params]) then
    { trail with params := trail.params + 1 }
  else
    trail.param

/-- Go over the remainder that is in the way of another wildcard, by the same rule. -/
def pastRemainder (trail : Trail) (name : Bytes) : Trail :=
  if trail.endsWith (inBraces (star :: name)) then trail else trail.remainder name

/-- The fault of getting in the way of what is at the end of the trail. Nodes left by
a refused insertion have no leaf and go by letters. -/
def conflict {α : Type} (trail : Trail) (leaf : Option (Leaf α)) : InsertFault :=
  let names := (leaf.map Leaf.params).getD []
  .conflict (decodeUtf8? (Step.spell names trail.reversed.reverse))

end Trail

mutual
/-- The fault of getting in the way of the pattern that is reached from a node by
always taking its first child. -/
def Node.conflict {α : Type} (trail : Trail) : Node α → InsertFault
  | .mk leaf branches wild => branches.conflict trail (wild.conflict trail (trail.conflict leaf))

def Branches.conflict {α : Type} (trail : Trail) (otherwise : InsertFault) :
    Branches α → InsertFault
  | .nil => otherwise
  | .cons byte _ laid node _ =>
      if laid then node.conflict (trail.byte byte) else trail.conflict node.leaf

def Wild.conflict {α : Type} (trail : Trail) (otherwise : InsertFault) : Wild α → InsertFault
  | .absent => otherwise
  | .param leaf tails => tails.conflict trail.param (trail.param.conflict leaf)
  | .remainder name leaf => (trail.remainder name).conflict (some leaf)

def Tails.conflict {α : Type} (trail : Trail) (otherwise : InsertFault) : Tails α → InsertFault
  | .nil => otherwise
  | .cons suffix node _ => node.conflict (trail.bytes suffix)
end

/-! ## Laying down new nodes -/

/-- A part of a tree after an insertion, with the fault that ended it, if any. -/
structure Grown (τ : Type) where
  part : τ
  fault : Option InsertFault

def Grown.map {τ ρ : Type} (wrap : τ → ρ) (grown : Grown τ) : Grown ρ :=
  ⟨wrap grown.part, grown.fault⟩

/-- What the tree keeps of a route whose first run of literals is not laid. -/
def Node.stub {α : Type} : Route → Node α
  | .literal byte _ => .mk none (.cons byte 1 false .empty .nil) .absent
  | _ => .empty

/-- Lay down the nodes of a route where the tree has none; the bytes of its first run
of literals get `visits`. A leaf that was `carried` along ends up where that run ends,
unless the route ends there. There is no result if the run ends in a misplaced
remainder. -/
def Node.sprout? {α : Type} (leaf : Leaf α) :
    Option (Leaf α) → Nat → Route → Option (Grown (Node α))
  | _, _, .stop => some ⟨.mk (some leaf) .nil .absent, none⟩
  | carried, visits, .literal byte next =>
      (Node.sprout? leaf carried visits next).map fun grown =>
        grown.map fun node => .mk none (.cons byte visits true node .nil) .absent
  | carried, _, .param => some ⟨.mk carried .nil (.param (some leaf) .nil), none⟩
  | carried, _, .paramThen suffix next =>
      let tail := (Node.sprout? leaf none 1 next).getD ⟨Node.stub next, some .misplacedRest⟩
      some (tail.map fun node => .mk carried .nil (.param none (.cons suffix node .nil)))
  | carried, _, .remainder name => some ⟨.mk carried .nil (.remainder name leaf), none⟩
  | carried, _, .crowded _ _ _ => some ⟨.mk carried .nil .absent, some .crowdedSegment⟩
  | _, _, .stray => none

/-- A branch's node, laid or not, with the fault that ended the work on it. -/
def Node.sproutBranch {α : Type} (leaf : Leaf α) (route : Route) : Grown (Bool × Node α) :=
  match Node.sprout? leaf none 1 route with
  | some grown => grown.map (true, ·)
  | none => ⟨(false, .empty), some .misplacedRest⟩

def Node.sproutTail {α : Type} (leaf : Leaf α) (route : Route) : Grown (Node α) :=
  (Node.sprout? leaf none 1 route).getD ⟨Node.stub route, some .misplacedRest⟩

/-- The wildcard child laid down by a route that begins with a wildcard. -/
def Wild.sprout {α : Type} (leaf : Leaf α) (route : Route) : Grown (Wild α) :=
  match Node.sprout? leaf none 1 route with
  | some grown => grown.map fun | .mk _ _ wild => wild
  | none => ⟨.absent, some .misplacedRest⟩

/-! ## Keeping children in order -/

/-- Put a branch in front of others, but behind a first one with more visits. -/
def Branches.settle {α : Type} (byte : UInt8) (visits : Nat) (laid : Bool) (node : Node α) :
    Branches α → Branches α
  | .nil => .cons byte visits laid node .nil
  | .cons first count known sibling others =>
      if visits < count then
        .cons first count known sibling (.cons byte visits laid node others)
      else
        .cons byte visits laid node (.cons first count known sibling others)

def Tails.lengths {α : Type} : Tails α → List Nat
  | .nil => []
  | .cons suffix _ others => suffix.length :: others.lengths

/-- Halve `count` places from `base` on until one is left, keeping the half whose
first length is at least `length`. -/
def Tails.halve (length : Nat) (lengths : List Nat) : Nat → Nat → Nat → Nat
  | 0, base, _ => base
  | fuel + 1, base, count =>
      if count ≤ 1 then
        base
      else
        let half := count / 2
        let kept := if length ≤ lengths.getD (base + half) 0 then base + half else base
        Tails.halve length lengths fuel kept (count - half)

/-- Where a tail of this length goes, behind the tails at least as long. Tails stand
longest first, unless one was cut; the place is found by halving. -/
def Tails.placeFor (length : Nat) (lengths : List Nat) : Nat :=
  if lengths = [] then
    0
  else
    let last := Tails.halve length lengths lengths.length 0 lengths.length
    if length ≤ lengths.getD last 0 then last + 1 else last

/-- Add a tail behind the first `place` ones. -/
def Tails.putAt {α : Type} (suffix : Bytes) (node : Node α) : Nat → Tails α → Tails α
  | 0, tails => .cons suffix node tails
  | _ + 1, .nil => .cons suffix node .nil
  | place + 1, .cons other sibling others =>
      .cons other sibling (Tails.putAt suffix node place others)

def Tails.place {α : Type} (suffix : Bytes) (node : Node α) (tails : Tails α) : Tails α :=
  tails.putAt suffix node (Tails.placeFor suffix.length tails.lengths)

def Tails.has {α : Type} (suffix : Bytes) : Tails α → Bool
  | .nil => false
  | .cons own _ others => own = suffix || others.has suffix

/-! ## Insertion -/

/-- A literal run, never visited yet, in front of a node. -/
def Node.behind {α : Type} (node : Node α) : Bytes → Node α
  | [] => node
  | byte :: rest => .mk none (.cons byte 0 true (node.behind rest) .nil) .absent

def Node.withWild {α : Type} (wild : Wild α) : Node α → Node α
  | .mk leaf branches _ => .mk leaf branches wild

/-- Add a route whose segment holds two wildcards. A tail that is literally the text
`lead ++ spelled` is cut behind `lead`, and what comes next grows there; without such
a tail the route is refused. -/
def Tails.cut {α : Type} (leaf : Leaf α) (lead spelled : Bytes) (next : Route) :
    Tails α → Grown (Tails α)
  | .nil => ⟨.nil, some .crowdedSegment⟩
  | .cons own node others =>
      if own = lead ++ spelled then
        (Wild.sprout leaf next).map fun wild =>
          .cons lead ((node.behind spelled).withWild wild) others
      else
        (others.cut leaf lead spelled next).map (.cons own node ·)

mutual
/-- Add a route below a node that was reached by `trail`. -/
def Node.insert {α : Type} (leaf : Leaf α) : Node α → Trail → Route → Grown (Node α)
  | .mk own branches wild, trail, .stop =>
      match own with
      | some bound => ⟨.mk own branches wild, some (trail.conflict (some bound))⟩
      | none => ⟨.mk (some leaf) branches wild, none⟩
  | .mk own branches wild, trail, .literal byte next =>
      (branches.insert leaf trail byte next).map (.mk own · wild)
  | .mk own branches wild, trail, route =>
      (wild.insert leaf trail route).map (.mk own branches ·)

/-- Add a route below the branch of `byte`, which counts the visit and moves in front
of branches with fewer visits; a new branch comes last. -/
def Branches.insert {α : Type} (leaf : Leaf α) :
    Branches α → Trail → UInt8 → Route → Grown (Branches α)
  | .nil, _, byte, route =>
      (Node.sproutBranch leaf route).map fun (laid, node) => .cons byte 1 laid node .nil
  | .cons own visits laid node others, trail, byte, route =>
      if own = byte then
        if laid then
          (node.insert leaf (trail.byte byte) route).map fun grown =>
            .cons own (visits + 1) true grown others
        else
          (Node.sproutBranch leaf route).map fun (laid, sprouted) =>
            .cons own (visits + 1) laid sprouted others
      else
        (others.insert leaf trail byte route).map (·.settle own visits laid node)

def Wild.insert {α : Type} (leaf : Leaf α) : Wild α → Trail → Route → Grown (Wild α)
  | .absent, _, route => Wild.sprout leaf route
  | .remainder name bound, trail, route =>
      let there := if route = .remainder name then trail.remainder name
        else trail.pastRemainder name
      ⟨.remainder name bound, some (there.conflict (some bound))⟩
  | .param own tails, trail, .param =>
      match own with
      | some bound => ⟨.param own tails, some (trail.param.conflict (some bound))⟩
      | none => ⟨.param (some leaf) tails, none⟩
  | .param own tails, trail, .paramThen suffix next =>
      if tails.has suffix then
        (tails.insert leaf trail.param suffix next).map (.param own ·)
      else
        (Node.sproutTail leaf next).map fun added => .param own (tails.place suffix added)
  | .param own tails, _, .crowded lead spelled next =>
      (tails.cut leaf lead spelled next).map (.param own ·)
  | .param own tails, trail, _ =>
      ⟨.param own tails,
        some (tails.conflict trail.pastParam (trail.pastParam.conflict own))⟩

def Tails.insert {α : Type} (leaf : Leaf α) :
    Tails α → Trail → Bytes → Route → Grown (Tails α)
  | .nil, _, _, _ => ⟨.nil, none⟩
  | .cons own node others, trail, suffix, route =>
      if own = suffix then
        (node.insert leaf (trail.bytes suffix) route).map (.cons own · others)
      else
        (others.insert leaf trail suffix route).map (.cons own node ·)
end

/-- A tree of patterns, each bound to a value, and the number of insertions tried. -/
structure PathTree (α : Type) where
  attempts : Nat
  root : Node α

namespace PathTree

def empty {α : Type} : PathTree α := ⟨0, Node.empty⟩

/-- Add a pattern. A tree without branches and wildcard is laid out afresh: its first
run of literals counts every insertion tried so far, and a leaf the root had moves to
the end of that run. -/
def insert {α : Type} (pattern : Pattern) (value : α) (tree : PathTree α) :
    Grown (PathTree α) :=
  let leaf : Leaf α := ⟨pattern.params, value⟩
  let attempts := tree.attempts + 1
  let grown :=
    match tree.root with
    | .mk carried .nil .absent =>
        (Node.sprout? leaf carried attempts pattern.route).getD
          ⟨tree.root, some .misplacedRest⟩
    | root => root.insert leaf Trail.start pattern.route
  grown.map (⟨attempts, ·⟩)

/-- A bound value with the parameters a path gave it, in the order of the pattern. -/
structure Match (α : Type) where
  value : α
  params : List (String × String)

/-- Bytes of a pattern or a path between two divisions of it. Both are divided at ASCII
bytes or where whole characters meet, so the bytes are those of a text. -/
def textOf (bytes : Bytes) : String :=
  (decodeUtf8? bytes).getD ""

def find {α : Type} (tree : PathTree α) (path : String) : Option (Match α) :=
  (tree.root.find (encodeUtf8 path)).map fun capture =>
    ⟨capture.value, (capture.names.zip capture.values).map fun (name, value) =>
      (textOf name, textOf value)⟩

end PathTree

end FunctionGateway.Routing
