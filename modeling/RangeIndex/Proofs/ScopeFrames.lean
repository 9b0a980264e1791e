import RangeIndex.Proofs.ScopeNesting

/-! Scopes as a stack of frames. The declarations in force stand in one list, each with the depth it
was made at, and leaving a scope drops them by comparing depths. What the list stands for is a stack
with a frame for every open scope: entering a scope puts an empty frame on top, a declaration goes into
the top frame, and leaving takes that frame away with all that was declared in it. The list is the
frames one behind the other, each tagged with its height. It stays so, and answers as the frames do, as
long as no scope is left that was not entered and no more scopes are open than are counted. -/
namespace RangeIndex.ScopeFrames
open ScopeNesting

section Definitions

/-- What scopes are asked for. -/
inductive Request where
  | push
  | pop
  | clear
  | declare (label space : String)
  | resolve (label : String)

/-- What is declared in one scope, the latest first. -/
abbrev Frame := List (String × String)

/-- The frame of the innermost scope, and those around it from the inside out. There is always a frame
for what is outside all scopes. -/
structure Stack where
  top : Frame
  outer : List Frame

/-- The declaration in force from the start. -/
def xmlDeclared : String × String := ("xml", xmlNamespace)

namespace Stack

/-- Outside all scopes only `xml` is declared. -/
def initial : Stack := ⟨[xmlDeclared], []⟩

def frames (stack : Stack) : List Frame := stack.top :: stack.outer

/-- Enter a scope: nothing is declared in it yet. -/
def push (stack : Stack) : Stack := ⟨[], stack.frames⟩

/-- Leave the innermost scope. The frame outside all scopes stays. -/
def pop (stack : Stack) : Stack :=
  match stack.outer with
  | [] => stack
  | next :: outer => ⟨next, outer⟩

/-- Declare a label in the innermost scope, unless its meaning is fixed. -/
def declare (stack : Stack) (label space : String) : Stack :=
  if label = "xml" ∨ label = "xmlns" then stack
  else { stack with top := (label, space) :: stack.top }

/-- The innermost frame that declares a label decides, and in it the latest declaration. An empty
namespace stands for none, also where a frame further out has one. -/
def resolve (stack : Stack) (label : String) : Option String :=
  presentText (stack.frames.findSome? fun frame => frame.lookup label)

/-- The stack after a request, with the answer to one that asks for a namespace. -/
def serve (stack : Stack) : Request → Stack × List (Option String)
  | .push => (stack.push, [])
  | .pop => (stack.pop, [])
  | .clear => (initial, [])
  | .declare label space => (stack.declare label space, [])
  | .resolve label => (stack, [stack.resolve label])

end Stack

/-- Scopes after a request, with the answer to one that asks for a namespace. -/
def serve (scopes : Scopes) : Request → Scopes × List (Option String)
  | .push => (scopes.push, [])
  | .pop => (scopes.pop, [])
  | .clear => (scopes.clear, [])
  | .declare label space => (scopes.declare label space, [])
  | .resolve label => (scopes, [scopes.resolve label])

/-- Requests in order: the state after the last, and the answers. -/
def run {State : Type} (serve : State → Request → State × List (Option String)) :
    State → List Request → State × List (Option String)
  | state, [] => (state, [])
  | state, request :: rest =>
    let (next, answers) := serve state request
    let (last, later) := run serve next rest
    (last, answers ++ later)

/-- How many scopes are open after a request. -/
def levelAfter (level : Nat) : Request → Nat
  | .push => level + 1
  | .pop => level - 1
  | .clear => 0
  | .declare _ _ => level
  | .resolve _ => level

/-- Whether a request may be made where so many scopes are open: only an open scope can be left, and
only as many can be open as are counted. -/
def Permitted (level : Nat) : Request → Prop
  | .push => level < 65535
  | .pop => 0 < level
  | _ => True

/-- Whether all requests may be made, one after the other. -/
def Proper : Nat → List Request → Prop
  | _, [] => True
  | level, request :: rest => Permitted level request ∧ Proper (levelAfter level request) rest

/-- Requests that leave every scope they enter, and no other. -/
inductive Balanced : List Request → Prop where
  | nothing : Balanced []
  | declare (label space : String) {rest : List Request} :
    Balanced rest → Balanced (.declare label space :: rest)
  | resolve (label : String) {rest : List Request} :
    Balanced rest → Balanced (.resolve label :: rest)
  | scope {inner rest : List Request} :
    Balanced inner → Balanced rest → Balanced (.push :: (inner ++ .pop :: rest))

/-- The declarations of a frame at a height. -/
def taggedFrame (height : Nat) (frame : Frame) : List Declaration :=
  frame.map fun (label, space) => ⟨label, space, .ofNat height⟩

/-- The declarations of frames one behind the other, each with the height of its frame. -/
def tagged : List Frame → List Declaration
  | [] => []
  | frame :: outer => taggedFrame outer.length frame ++ tagged outer

/-- The scopes that a stack of frames stands for. -/
def flat (stack : Stack) : Scopes := ⟨tagged stack.frames, .ofNat stack.outer.length⟩

/-- The frame outside all scopes keeps what was declared there first. -/
def Grounded (stack : Stack) : Prop :=
  ∃ inner declared, stack.frames = inner ++ [declared ++ [xmlDeclared]]

end Definitions

section Running
variable {State : Type} {act : State → Request → State × List (Option String)}

theorem run_append (state : State) (before later : List Request) :
    run act state (before ++ later) =
      ((run act (run act state before).1 later).1,
        (run act state before).2 ++ (run act (run act state before).1 later).2) := by
  induction before generalizing state with
  | nil => rfl
  | cons request rest ih =>
    rw [List.cons_append, run, run]
    dsimp only
    rw [ih, List.append_assoc]

end Running

section Tags
variable {frames : List Frame} {declaration : Declaration}

/-- No declaration is tagged as high as the stack it is in. -/
theorem tag_below_height (member : declaration ∈ tagged frames) (room : frames.length ≤ 65536) :
    declaration.depth.toNat < frames.length := by
  induction frames with
  | nil => cases member
  | cons frame outer ih =>
    rw [List.length_cons] at room ⊢
    rcases List.mem_append.mp member with own | below
    · obtain ⟨_, _, rfl⟩ := List.mem_map.mp own
      have counted : outer.length < UInt16.size := by
        rw [UInt16.size]
        omega
      rw [UInt16.toNat_ofNat_of_lt' counted]
      exact Nat.lt_succ_self _
    · exact Nat.lt_succ_of_lt (ih below (by omega))

theorem tagged_declarations (frames : List Frame) :
    (tagged frames).map (fun d => (d.label, d.space)) = frames.flatten := by
  induction frames with
  | nil => rfl
  | cons frame outer ih =>
    rw [tagged, List.map_append, ih, taggedFrame, List.map_map, List.flatten_cons]
    exact congrArg (· ++ outer.flatten) (List.map_id frame)

theorem lookup_flatten (frames : List Frame) (label : String) :
    frames.flatten.lookup label = frames.findSome? fun frame => frame.lookup label := by
  induction frames with
  | nil => rfl
  | cons frame outer ih =>
    rw [List.flatten_cons, List.lookup_append, ih, List.findSome?_cons]
    cases frame.lookup label <;> rfl

end Tags

section Steps
variable {stack : Stack}

theorem flat_push (stack : Stack) : (flat stack).push = flat stack.push := by
  have height : UInt16.ofNat stack.outer.length + 1 = .ofNat stack.push.outer.length := by
    simp [Stack.push, Stack.frames, UInt16.ofNat_add]
  rw [Scopes.push, flat, height]
  rfl

/-- Depths tell the top frame from those below it, as long as they are counted apart. -/
theorem flat_pop (inside : 0 < stack.outer.length) (room : stack.outer.length ≤ 65535) :
    (flat stack).pop = flat stack.pop := by
  obtain ⟨top, outer⟩ := stack
  dsimp only at inside room
  cases outer with
  | nil => exact absurd inside (Nat.lt_irrefl 0)
  | cons next outer =>
    have counted : (next :: outer).length < UInt16.size := Nat.lt_succ_of_le room
    let height : UInt16 := .ofNat (next :: outer).length
    have value : height.toNat = outer.length + 1 := UInt16.toNat_ofNat_of_lt' counted
    have ended : ∀ declaration ∈ taggedFrame (next :: outer).length top,
        decide (height ≤ declaration.depth) = true := by
      intro declaration member
      obtain ⟨_, _, rfl⟩ := List.mem_map.mp member
      exact decide_eq_true UInt16.le_rfl
    have stays : ∀ declaration ∈ tagged (next :: outer),
        decide (height ≤ declaration.depth) = false := by
      intro declaration member
      have below := tag_below_height member (Nat.le_succ_of_le room)
      rw [decide_eq_false_iff_not, UInt16.le_iff_toNat_le, value]
      exact Nat.not_le_of_lt below
    have positive : height ≠ 0 := by
      intro zero
      rw [zero] at value
      cases value
    have lower : height - 1 = .ofNat outer.length := by
      simp [height, UInt16.ofNat_add]
    have declarations : (flat ⟨top, next :: outer⟩).declarations =
        taggedFrame (next :: outer).length top ++ tagged (next :: outer) := rfl
    rw [Scopes.pop, declarations]
    change Scopes.mk (List.dropWhile (fun d => decide (height ≤ d.depth)) _)
      (if height = 0 then 0 else height - 1) = _
    rw [dropWhile_at_boundary ended stays, if_neg positive, lower]
    rfl

theorem flat_declare (stack : Stack) (label space : String) :
    (flat stack).declare label space = flat (stack.declare label space) := by
  unfold Scopes.declare Stack.declare
  by_cases reserved : label = "xml" ∨ label = "xmlns"
  · rw [if_pos reserved, if_pos (by simpa [Scopes.isReserved] using reserved)]
  · rw [if_neg reserved, if_neg (by simpa [Scopes.isReserved] using reserved)]
    rfl

/-- The oldest declaration is the one in force from the start. -/
theorem flat_clear (grounded : Grounded stack) : (flat stack).clear = flat .initial := by
  obtain ⟨inner, declared, frames⟩ := grounded
  have oldest (inner : List Frame) : (tagged (inner ++ [declared ++ [xmlDeclared]])).getLast? =
      some ⟨"xml", xmlNamespace, 0⟩ := by
    induction inner with
    | nil => simp [tagged, taggedFrame, xmlDeclared]
    | cons frame inner ih => rw [List.cons_append, tagged, List.getLast?_append, ih]; rfl
  rw [Scopes.clear, flat, frames]
  dsimp only
  rw [oldest]
  rfl

theorem flat_resolve (stack : Stack) (label : String) :
    (flat stack).resolve label = stack.resolve label := by
  rw [Scopes.resolve, lookup_declared, flat, tagged_declarations, lookup_flatten]
  rfl

end Steps

section Runs
variable {stack : Stack} {request : Request} {requests : List Request}

theorem initial_grounded : Grounded .initial := ⟨[], [], rfl⟩

/-- Whatever is asked, the frame outside all scopes keeps its first declaration. -/
theorem serve_grounded (grounded : Grounded stack) (request : Request) :
    Grounded (stack.serve request).1 := by
  obtain ⟨inner, declared, frames⟩ := grounded
  cases request with
  | push => exact ⟨[] :: inner, declared, congrArg (List.cons []) frames⟩
  | pop =>
    obtain ⟨top, outer⟩ := stack
    cases outer with
    | nil => exact ⟨inner, declared, frames⟩
    | cons next outer =>
      cases inner with
      | nil => cases frames
      | cons _ inner => exact ⟨inner, declared, (List.cons.inj frames).2⟩
  | clear => exact initial_grounded
  | declare label space =>
    change Grounded (stack.declare label space)
    unfold Stack.declare
    split
    · exact ⟨inner, declared, frames⟩
    · cases inner with
      | nil =>
        obtain ⟨top, outer⟩ := List.cons.inj frames
        refine ⟨[], (label, space) :: declared, ?_⟩
        simp [Stack.frames, top, outer]
      | cons frame inner =>
        obtain ⟨_, outer⟩ := List.cons.inj frames
        exact ⟨((label, space) :: stack.top) :: inner, declared, congrArg (List.cons _) outer⟩
  | resolve label => exact ⟨inner, declared, frames⟩

/-- A stack has as many frames as scopes are open, besides the one outside all of them. -/
theorem level_served (stack : Stack) (request : Request) :
    (stack.serve request).1.outer.length = levelAfter stack.outer.length request := by
  cases request with
  | push => rfl
  | pop =>
    obtain ⟨top, outer⟩ := stack
    cases outer <;> rfl
  | clear => rfl
  | declare label space =>
    change (stack.declare label space).outer.length = _
    unfold Stack.declare
    split <;> rfl
  | resolve label => rfl

theorem level_in_room (permitted : Permitted stack.outer.length request)
    (room : stack.outer.length ≤ 65535) : (stack.serve request).1.outer.length ≤ 65535 := by
  rw [level_served]
  cases request with
  | push => exact permitted
  | pop => exact Nat.le_trans (Nat.sub_le _ _) room
  | clear => exact Nat.zero_le _
  | declare label space => exact room
  | resolve label => exact room

/-- One request does to the scopes what it does to the frames. -/
theorem serve_refines (grounded : Grounded stack) (permitted : Permitted stack.outer.length request)
    (room : stack.outer.length ≤ 65535) :
    serve (flat stack) request = (flat (stack.serve request).1, (stack.serve request).2) := by
  cases request with
  | push => rw [serve, flat_push]; rfl
  | pop => rw [serve, flat_pop permitted room]; rfl
  | clear => rw [serve, flat_clear grounded]; rfl
  | declare label space => rw [serve, flat_declare]; rfl
  | resolve label => rw [serve, flat_resolve]; rfl

/-- Scopes go through a run of requests as the frames do. -/
theorem run_refines (grounded : Grounded stack) (room : stack.outer.length ≤ 65535)
    (proper : Proper stack.outer.length requests) :
    run serve (flat stack) requests =
      (flat (run Stack.serve stack requests).1, (run Stack.serve stack requests).2) := by
  induction requests generalizing stack with
  | nil => rfl
  | cons request rest ih =>
    obtain ⟨permitted, later⟩ := proper
    rw [← level_served] at later
    have next := ih (serve_grounded grounded request) (level_in_room permitted room) later
    rw [run, serve_refines grounded permitted room]
    dsimp only
    rw [next]
    rfl

/-- A proper run never has more scopes open than are counted. -/
theorem level_bounded (proper : Proper stack.outer.length requests)
    (room : stack.outer.length ≤ 65535) :
    (run Stack.serve stack requests).1.outer.length ≤ 65535 := by
  induction requests generalizing stack with
  | nil => exact room
  | cons request rest ih =>
    obtain ⟨permitted, later⟩ := proper
    rw [← level_served] at later
    exact ih later (level_in_room permitted room)

/-- Requests that leave every scope they enter change nothing but the top frame. -/
theorem balanced_keeps_outer (balanced : Balanced requests) (stack : Stack) :
    (run Stack.serve stack requests).1.outer = stack.outer := by
  induction balanced generalizing stack with
  | nothing => rfl
  | declare label space _ ih =>
    refine (ih (stack.declare label space)).trans ?_
    unfold Stack.declare
    split <;> rfl
  | resolve label _ ih => exact ih stack
  | @scope inner rest _ _ entered ih =>
    let inside := (run Stack.serve stack.push inner).1
    have outer : inside.outer = stack.frames := entered stack.push
    have left : inside.pop = stack := by
      rw [Stack.pop, outer]
      rfl
    have whole : (run Stack.serve stack (.push :: (inner ++ .pop :: rest))).1 =
        (run Stack.serve inside.pop rest).1 := by
      rw [run]
      dsimp only
      rw [run_append]
      rfl
    rw [whole, left, ih stack]

/-- A scope that is entered and left again leaves the frames as they were. -/
theorem scope_restores_frames (balanced : Balanced requests) (stack : Stack) :
    (run Stack.serve stack (.push :: (requests ++ [.pop]))).1 = stack := by
  let inside := (run Stack.serve stack.push requests).1
  have outer : inside.outer = stack.frames := balanced_keeps_outer balanced stack.push
  have left : (run Stack.serve stack (.push :: (requests ++ [.pop]))).1 = inside.pop := by
    rw [run]
    dsimp only
    rw [run_append]
    rfl
  rw [left, Stack.pop, outer]
  rfl

end Runs

/-- As long as no scope is left that was not entered and at most 65535 are open, scopes answer as a
stack of frames does, are as deep as it, and give each label the namespace that it has in the frames.
Entering a scope, doing anything there that leaves all it enters, and leaving the scope changes
nothing. -/
theorem scopes_refine_frames {requests : List Request} (proper : Proper 0 requests) :
    let held := run serve .initial requests
    let framed := run Stack.serve .initial requests
    held.2 = framed.2 ∧ held.1.depth.toNat = framed.1.outer.length ∧
      (∀ label, held.1.resolve label = framed.1.resolve label) ∧
      ∀ inner, Balanced inner → Proper 0 (requests ++ .push :: (inner ++ [.pop])) →
        (run serve .initial (requests ++ .push :: (inner ++ [.pop]))).1 = held.1 := by
  intro held framed
  have refines {requests : List Request} (proper : Proper 0 requests) :
      run serve .initial requests =
        (flat (run Stack.serve .initial requests).1, (run Stack.serve .initial requests).2) :=
    run_refines initial_grounded (Nat.zero_le _) proper
  have same : held = (flat framed.1, framed.2) := refines proper
  have outermost : Proper Stack.initial.outer.length requests := proper
  have room : framed.1.outer.length ≤ 65535 := level_bounded outermost (Nat.zero_le _)
  rw [same]
  refine ⟨rfl, UInt16.toNat_ofNat_of_lt' (Nat.lt_succ_of_le room), flat_resolve framed.1, ?_⟩
  intro inner balanced proper
  rw [refines proper, run_append]
  exact congrArg flat (scope_restores_frames balanced framed.1)

section Sample

/-- Declare a label in a scope, hide it further inside, leave that scope again, and start over. -/
def shadowing : List Request :=
  [.push, .declare "p" "u", .push, .declare "p" "", .declare "xml" "v", .resolve "p", .pop,
    .resolve "p", .push, .declare "" "w", .resolve "", .clear, .resolve "p", .resolve "xml"]

/-- An inner scope in a scope. -/
def enclosed : List Request := [.declare "p" "x", .push, .declare "p" "y", .pop, .resolve "p"]

theorem shadowing_answered :
    Proper 0 shadowing ∧ Balanced enclosed ∧
      Proper 0 (shadowing ++ .push :: (enclosed ++ [.pop])) ∧
      let held := run serve .initial shadowing
      held.2 = [none, some "u", some "w", none, some xmlNamespace] ∧
        held.1.resolve "xml" = some xmlNamespace ∧
        (run serve .initial (shadowing ++ .push :: (enclosed ++ [.pop]))).1 = held.1 := by
  have proper : Proper 0 shadowing := by simp [shadowing, Proper, Permitted, levelAfter]
  have balanced : Balanced enclosed :=
    .declare _ _ (.scope (.declare _ _ .nothing) (.resolve _ .nothing))
  have within : Proper 0 (shadowing ++ .push :: (enclosed ++ [.pop])) := by
    simp [shadowing, enclosed, Proper, Permitted, levelAfter]
  obtain ⟨answers, _, resolves, restores⟩ := scopes_refine_frames proper
  refine ⟨proper, balanced, within, answers.trans ?_, (resolves "xml").trans ?_,
    restores enclosed balanced within⟩
  · rfl
  · rfl

end Sample

end RangeIndex.ScopeFrames
