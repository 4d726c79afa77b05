import MarkupEdit.Proofs.Tree.Frame
import MarkupEdit.Proofs.Tree.Tour

/-!
# The calls of a walk

A visitor that keeps a log shows which hooks a walk calls, in which order, and where.

* `Visitor.logged`: what a visitor does, and a log of its calls.
* `withoutLog_tour`: the log changes nothing else.
* `Reaches`: where a walk comes from a node.
* `HookCall.Before`: how the place of a call lies to those of the later ones.
* `tour_calls`: **the calls at a node and below it come one before the other, and the script holds
  the changes that they asked for.**
* `traverse_calls`: **a walk makes the calls of the recursion, each where its node is.**
-/

namespace MarkupEdit.Tree

variable {σ : Type}

/-! ## The log -/

/-- Which hook of a visitor is called. -/
inductive Phase where
  | entry
  | exit
  deriving DecidableEq

/-- A call of a hook, and what the visitor asked for. -/
structure HookCall where
  phase : Phase
  node : Node
  place : Place
  control : Control

namespace HookCall

def path (c : HookCall) : Path := c.place.path

def isEntry (c : HookCall) : Bool := c.phase == .entry

/-- The script with the change that was asked for. -/
def note (script : EditScript) (c : HookCall) : EditScript :=
  match c.control.edit with
  | some edit => script.record c.path edit
  | none => script

end HookCall

/-- The visitor that does what another one does and keeps a log. -/
def Visitor.logged (visitor : Visitor σ) : Visitor (σ × List HookCall) where
  enter node place s :=
    let (state, control) := visitor.enter node place s.1
    ((state, s.2 ++ [⟨.entry, node, place, control⟩]), control)
  leave node place s :=
    let (state, control) := visitor.leave node place s.1
    ((state, s.2 ++ [⟨.exit, node, place, control⟩]), control)

theorem Visitor.logged_enter (visitor : Visitor σ) (node : Node) (place : Place)
    (s : σ × List HookCall) :
    visitor.logged.enter node place s =
      (((visitor.enter node place s.1).1,
        s.2 ++ [⟨.entry, node, place, (visitor.enter node place s.1).2⟩]),
        (visitor.enter node place s.1).2) := rfl

theorem Visitor.logged_leave (visitor : Visitor σ) (node : Node) (place : Place)
    (s : σ × List HookCall) :
    visitor.logged.leave node place s =
      (((visitor.leave node place s.1).1,
        s.2 ++ [⟨.exit, node, place, (visitor.leave node place s.1).2⟩]),
        (visitor.leave node place s.1).2) := rfl

namespace Traversal

/-- What came out of a walk, without the log. -/
def withoutLog (t : Traversal (σ × List HookCall)) : Traversal σ :=
  ⟨t.completion, t.visited, t.edits, t.state.1⟩

/-- The calls that were made. -/
def log (t : Traversal (σ × List HookCall)) : List HookCall := t.state.2

variable (t : Traversal (σ × List HookCall)) (place : Place) (edit : Option Edit) (stop : Bool)

theorem log_note : (t.note place edit).log = t.log := by cases edit <;> rfl

theorem log_stoppedIf : (t.stoppedIf stop).log = t.log := by cases stop <;> rfl

theorem edits_note :
    (t.note place edit).edits =
      match edit with
      | some edit => t.edits.record place.path edit
      | none => t.edits := by
  cases edit <;> rfl

theorem edits_stoppedIf : (t.stoppedIf stop).edits = t.edits := by cases stop <;> rfl

theorem withoutLog_note : (t.note place edit).withoutLog = t.withoutLog.note place edit := by
  cases edit <;> rfl

theorem withoutLog_stoppedIf : (t.stoppedIf stop).withoutLog = t.withoutLog.stoppedIf stop := by
  cases stop <;> rfl

end Traversal

open Traversal

variable (visitor : Visitor σ) (limit : Nat)

theorem withoutLog_enterNode (node : Node) (place : Place) (t : Traversal (σ × List HookCall)) :
    enterNode visitor limit node place t.withoutLog =
      ((enterNode visitor.logged limit node place t).1.withoutLog,
        (enterNode visitor.logged limit node place t).2) := by
  by_cases hdeep : limit < place.depth
  · rw [enterNode_deep hdeep, enterNode_deep hdeep]
    rfl
  · rw [enterNode_eq hdeep (visitor.logged_enter node place t.state), enterNode_eq hdeep rfl,
      withoutLog_stoppedIf, withoutLog_note]
    rfl

theorem withoutLog_leaveNode (node : Node) (place : Place) (t : Traversal (σ × List HookCall)) :
    leaveNode visitor node place t.withoutLog =
      ((leaveNode visitor.logged node place t).1.withoutLog,
        (leaveNode visitor.logged node place t).2) := by
  rw [leaveNode_eq (visitor.logged_leave node place t.state), leaveNode_eq rfl,
    withoutLog_stoppedIf, withoutLog_note]
  rfl

mutual

/-- **Keeping a log changes nothing else.** -/
theorem withoutLog_tour (node : Node) (place : Place) (t : Traversal (σ × List HookCall)) :
    tour visitor limit node place t.withoutLog =
      ((tour visitor.logged limit node place t).1.withoutLog,
        (tour visitor.logged limit node place t).2) := by
  rw [tour_eq, tour_eq, withoutLog_enterNode]
  rcases enterNode visitor.logged limit node place t with ⟨t, onward⟩
  cases onward with
  | halt => rfl
  | settled => rfl
  | leave => exact withoutLog_leaveNode visitor node place t
  | descend =>
    dsimp only
    rw [withoutLog_tourAll node place 0 node.children t]
    rcases tourAll visitor.logged limit node place 0 node.children t with ⟨t, _ | _⟩
    · rfl
    · exact withoutLog_leaveNode visitor node place t
termination_by 2 * node.count
decreasing_by
  have := node.count_eq
  omega

theorem withoutLog_tourAll (parent : Node) (place : Place) (index : Nat) (children : List Node)
    (t : Traversal (σ × List HookCall)) :
    tourAll visitor limit parent place index children t.withoutLog =
      ((tourAll visitor.logged limit parent place index children t).1.withoutLog,
        (tourAll visitor.logged limit parent place index children t).2) := by
  match children with
  | [] => rfl
  | child :: rest =>
    rw [tourAll, tourAll, withoutLog_tour child (place.child parent index) t]
    rcases tour visitor.logged limit child (place.child parent index) t with ⟨t, _ | _⟩
    · rfl
    · exact withoutLog_tourAll parent place (index + 1) rest t
termination_by 2 * Node.countAll children + 1
decreasing_by
  all_goals
    have := child.count_eq
    simp only [Node.countAll]
    omega

end

/-! ## Where a walk comes -/

/-- The nodes on the way from a node to a descendant, the node itself first, the descendant left
out. -/
def Node.along (n : Node) : Path → List Node
  | [] => []
  | i :: path =>
    n :: match n.children[i]? with
      | none => []
      | some child => child.along path

/-- From a node at a place a walk comes to another node at another place. -/
inductive Reaches : Node → Place → Node → Place → Prop
  | here {n : Node} {p : Place} : Reaches n p n p
  | child {n c m : Node} {p q : Place} {i : Nat} (hc : n.children[i]? = some c)
      (h : Reaches c (p.child n i) m q) : Reaches n p m q

namespace Place

theorem path_child (p : Place) (n : Node) (i : Nat) : (p.child n i).path = p.path ++ [i] :=
  List.reverse_cons

theorem ancestors_child (p : Place) (n : Node) (i : Nat) :
    (p.child n i).ancestors = p.ancestors ++ [n] :=
  List.reverse_cons

theorem depth_eq (p : Place) : p.depth = p.ancestors.length := List.length_reverse.symm

end Place

/-- Where a walk comes, the path leads to the node, past the nodes around it. -/
theorem Reaches.spec {n m : Node} {p q : Place} (h : Reaches n p m q) :
    ∃ path, n.get path = some m ∧ q.path = p.path ++ path ∧
      q.ancestors = p.ancestors ++ n.along path ∧ (n.along path).length = path.length := by
  induction h with
  | here => exact ⟨[], rfl, (List.append_nil _).symm, (List.append_nil _).symm, rfl⟩
  | @child n c m p q i hc h ih =>
    obtain ⟨path, hget, hpath, hancestors, hlength⟩ := ih
    have halong : n.along (i :: path) = n :: c.along path := by rw [Node.along, hc]
    refine ⟨i :: path, by rw [Node.get_cons hc, hget], ?_, ?_, ?_⟩
    · rw [hpath, Place.path_child, List.append_assoc, List.singleton_append]
    · rw [hancestors, Place.ancestors_child, halong, List.append_assoc, List.singleton_append]
    · rw [halong, List.length_cons, List.length_cons, hlength]

/-! ## The order of the calls -/

theorem Path.order_append (p q r : Path) : order (p ++ q) (p ++ r) = order q r := by
  induction p with
  | nil => rfl
  | cons i p ih =>
    rw [List.cons_append, List.cons_append, order, ih, Nat.compare_eq_eq.mpr rfl]
    rfl

/-- How a call lies to a later one: nodes are entered in document order, and nothing is called any
more at or below a node that was left or for which a change was asked. -/
structure HookCall.Before (c d : HookCall) : Prop where
  entered : c.isEntry → d.isEntry → c.path.order d.path = .lt
  settled : c.isEntry = false ∨ c.control.edit.isSome → ¬ c.path <+: d.path

/-- Between two states of a walk some calls were made, and the script notes what they asked for. -/
structure Adds (t t' : Traversal (σ × List HookCall)) (calls : List HookCall) : Prop where
  log : t'.log = t.log ++ calls
  edits : t'.edits = calls.foldl HookCall.note t.edits

theorem Adds.refl (t : Traversal (σ × List HookCall)) : Adds t t [] :=
  ⟨(List.append_nil _).symm, rfl⟩

theorem Adds.trans {t t' t'' : Traversal (σ × List HookCall)} {calls calls' : List HookCall}
    (h : Adds t t' calls) (h' : Adds t' t'' calls') : Adds t t'' (calls ++ calls') :=
  ⟨by rw [h'.log, h.log, List.append_assoc], by rw [h'.edits, h.edits, List.foldl_append]⟩

theorem adds_enterNode (node : Node) (place : Place) (t : Traversal (σ × List HookCall)) :
    (Adds t (enterNode visitor.logged limit node place t).1 [] ∧
      (enterNode visitor.logged limit node place t).2 = .halt) ∨
    ∃ control : Control,
      Adds t (enterNode visitor.logged limit node place t).1 [⟨.entry, node, place, control⟩] ∧
      (enterNode visitor.logged limit node place t).2 = control.onward := by
  by_cases hdeep : limit < place.depth
  · rw [enterNode_deep hdeep]
    exact .inl ⟨⟨(List.append_nil _).symm, rfl⟩, rfl⟩
  rw [enterNode_eq hdeep (visitor.logged_enter node place t.state)]
  refine .inr ⟨(visitor.enter node place t.state.1).2, ⟨?_, ?_⟩, rfl⟩
  · rw [log_stoppedIf, log_note]
    rfl
  · rw [edits_stoppedIf, edits_note]
    rfl

theorem adds_leaveNode (node : Node) (place : Place) (t : Traversal (σ × List HookCall)) :
    ∃ control, Adds t (leaveNode visitor.logged node place t).1
      [⟨.exit, node, place, control⟩] := by
  rw [leaveNode_eq (visitor.logged_leave node place t.state)]
  refine ⟨(visitor.leave node place t.state.1).2, ?_, ?_⟩
  · rw [log_stoppedIf, log_note]
    rfl
  · rw [edits_stoppedIf, edits_note]
    rfl

/-- Calls at a node and below it, one before the other. -/
structure CallsIn (node : Node) (place : Place) (calls : List HookCall) : Prop where
  reached : ∀ c ∈ calls, Reaches node place c.node c.place
  ordered : calls.Pairwise HookCall.Before

/-- Calls at the children of a node from an index on and below them, one before the other. -/
structure CallsFrom (node : Node) (place : Place) (index : Nat) (calls : List HookCall) :
    Prop where
  reached : ∀ c ∈ calls, ∃ i child, index ≤ i ∧ node.children[i]? = some child ∧
    Reaches child (place.child node i) c.node c.place
  ordered : calls.Pairwise HookCall.Before

variable {node child : Node} {place : Place} {index : Nat} {calls rest : List HookCall}
  {control : Control} {c : HookCall}

theorem CallsIn.nil : CallsIn node place [] :=
  ⟨fun _ h => absurd h List.not_mem_nil, List.Pairwise.nil⟩

theorem CallsIn.path (h : CallsIn node place calls) (hc : c ∈ calls) :
    ∃ path, c.path = place.path ++ path := by
  obtain ⟨path, -, hpath, -⟩ := (h.reached c hc).spec
  exact ⟨path, hpath⟩

theorem CallsFrom.nil : CallsFrom node place index [] :=
  ⟨fun _ h => absurd h List.not_mem_nil, List.Pairwise.nil⟩

theorem CallsFrom.path (h : CallsFrom node place index calls) (hc : c ∈ calls) :
    ∃ i path, index ≤ i ∧ c.path = place.path ++ i :: path := by
  obtain ⟨i, child, hi, -, hreaches⟩ := h.reached c hc
  obtain ⟨path, -, hpath, -⟩ := hreaches.spec
  refine ⟨i, path, hi, ?_⟩
  rw [HookCall.path, hpath, Place.path_child, List.append_assoc, List.singleton_append]

/-- The calls below a child come before those below its later siblings. -/
theorem CallsFrom.cons (hchild : node.children[index]? = some child)
    (h : CallsIn child (place.child node index) calls)
    (hrest : CallsFrom node place (index + 1) rest) :
    CallsFrom node place index (calls ++ rest) := by
  refine ⟨?_, List.pairwise_append.mpr ⟨h.ordered, hrest.ordered, ?_⟩⟩
  · intro c hc
    rcases List.mem_append.mp hc with hc | hc
    · exact ⟨index, child, Nat.le_refl _, hchild, h.reached c hc⟩
    · obtain ⟨i, child, hi, hc⟩ := hrest.reached c hc
      exact ⟨i, child, by omega, hc⟩
  · intro c hc d hd
    -- the two paths part at the node
    obtain ⟨path, hcp⟩ := h.path hc
    obtain ⟨j, path', hj, hdp⟩ := hrest.path hd
    rw [Place.path_child, List.append_assoc, List.singleton_append] at hcp
    constructor
    · intro _ _
      rw [hcp, hdp, Path.order_append, Path.order, Nat.compare_eq_lt.mpr (by omega)]
      rfl
    · intro _ hprefix
      rw [hcp, hdp, List.prefix_append_right_inj, List.cons_prefix_cons] at hprefix
      omega

/-- The entry of a node comes before the calls below it, of which there are none behind a change. -/
theorem callsIn_entry (hcalls : CallsFrom node place 0 calls)
    (h : calls = [] ∨ control.edit = none) :
    CallsIn node place (⟨.entry, node, place, control⟩ :: calls) := by
  refine ⟨?_, List.pairwise_cons.mpr ⟨?_, hcalls.ordered⟩⟩
  · intro c hc
    rcases List.mem_cons.mp hc with rfl | hc
    · exact .here
    · obtain ⟨i, child, -, hchild, hreaches⟩ := hcalls.reached c hc
      exact .child hchild hreaches
  · intro d hd
    have hedit : control.edit = none := h.resolve_left (List.ne_nil_of_mem hd)
    obtain ⟨i, path, -, hdp⟩ := hcalls.path hd
    constructor
    · intro _ _
      have horder := Path.order_append place.path [] (i :: path)
      rw [List.append_nil] at horder
      rw [hdp]
      exact horder
    · rintro (hentry | hsome)
      · cases hentry
      · rw [hedit] at hsome
        cases hsome

/-- The exit of a node comes behind all calls below it. -/
theorem callsIn_exit (hcalls : CallsFrom node place 0 calls) (hedit : control.edit = none)
    (control' : Control) :
    CallsIn node place
      (⟨.entry, node, place, control⟩ :: calls ++ [⟨.exit, node, place, control'⟩]) := by
  have hentry := callsIn_entry hcalls (.inr hedit)
  refine ⟨?_, List.pairwise_append.mpr ⟨hentry.ordered, List.pairwise_singleton _ _, ?_⟩⟩
  · intro c hc
    rcases List.mem_append.mp hc with hc | hc
    · exact hentry.reached c hc
    · rw [List.mem_singleton.mp hc]
      exact .here
  · intro c hc d hd
    rw [List.mem_singleton.mp hd]
    refine ⟨fun _ h => absurd h Bool.false_ne_true, ?_⟩
    intro hsettled hprefix
    rcases List.mem_cons.mp hc with rfl | hc
    · rw [hedit] at hsettled
      rcases hsettled with h | h <;> cases h
    · -- the path of a call below is longer
      obtain ⟨i, path, -, hcp⟩ := hcalls.path hc
      have hlength : c.path.length ≤ place.path.length := hprefix.length_le
      rw [hcp, List.length_append, List.length_cons] at hlength
      omega

/-- A node with a change is neither opened nor left. -/
theorem edit_of_onward (h : control.onward = .descend ∨ control.onward = .leave) :
    control.edit = none := by
  obtain ⟨stop, skip, edit⟩ := control
  cases stop with
  | true => rcases h with h | h <;> cases h
  | false =>
    cases edit with
    | none => rfl
    | some edit => rcases h with h | h <;> cases h

mutual

/-- **The calls at a node and below it come one before the other**, and the script holds the changes
that they asked for. -/
theorem tour_calls (node : Node) (place : Place) (t : Traversal (σ × List HookCall)) :
    ∃ calls, Adds t (tour visitor.logged limit node place t).1 calls ∧
      CallsIn node place calls := by
  rw [tour_eq]
  have hcalls := adds_enterNode visitor limit node place t
  rcases henter : enterNode visitor.logged limit node place t with ⟨t₁, onward⟩
  rw [henter] at hcalls
  obtain ⟨hadds, rfl⟩ | ⟨control, hadds, rfl⟩ := hcalls
  · exact ⟨[], hadds, .nil⟩
  cases honward : control.onward with
  | halt => exact ⟨_, hadds, callsIn_entry .nil (.inl rfl)⟩
  | settled => exact ⟨_, hadds, callsIn_entry .nil (.inl rfl)⟩
  | leave =>
    have hedit := edit_of_onward (.inr honward)
    obtain ⟨control', hleave⟩ := adds_leaveNode visitor node place t₁
    exact ⟨_, hadds.trans hleave, callsIn_exit .nil hedit control'⟩
  | descend =>
    have hedit := edit_of_onward (.inl honward)
    obtain ⟨calls, hchildren, hcalls⟩ :=
      tourAll_calls node place 0 node.children t₁ List.drop_zero.symm
    dsimp only
    rcases htour : tourAll visitor.logged limit node place 0 node.children t₁ with ⟨t₂, _ | _⟩ <;>
      rw [htour] at hchildren
    · exact ⟨_, hadds.trans hchildren, callsIn_entry hcalls (.inr hedit)⟩
    · obtain ⟨control', hleave⟩ := adds_leaveNode visitor node place t₂
      exact ⟨_, (hadds.trans hchildren).trans hleave, callsIn_exit hcalls hedit control'⟩
termination_by 2 * node.count
decreasing_by
  have := node.count_eq
  omega

theorem tourAll_calls (node : Node) (place : Place) (index : Nat) (children : List Node)
    (t : Traversal (σ × List HookCall)) (h : children = node.children.drop index) :
    ∃ calls, Adds t (tourAll visitor.logged limit node place index children t).1 calls ∧
      CallsFrom node place index calls := by
  match children with
  | [] => exact ⟨[], .refl t, .nil⟩
  | child :: rest =>
    have hchild : node.children[index]? = some child := by
      rw [← List.head?_drop, ← h]
      rfl
    have hdrop : rest = node.children.drop (index + 1) := by
      rw [← List.drop_drop, ← h]
      rfl
    obtain ⟨calls, hadds, hcalls⟩ := tour_calls child (place.child node index) t
    rw [tourAll]
    rcases htour : tour visitor.logged limit child (place.child node index) t with ⟨t₁, _ | _⟩ <;>
      rw [htour] at hadds
    · exact ⟨calls ++ [], hadds.trans (.refl t₁), .cons hchild hcalls .nil⟩
    · obtain ⟨calls', hadds', hcalls'⟩ := tourAll_calls node place (index + 1) rest t₁ hdrop
      exact ⟨calls ++ calls', hadds.trans hadds', .cons hchild hcalls hcalls'⟩
termination_by 2 * Node.countAll children + 1
decreasing_by
  all_goals
    have := child.count_eq
    simp only [Node.countAll]
    omega

end

/-! ## A whole walk -/

/-- The calls that a walk makes, in order. -/
def hookCalls (root : Node) (visitor : Visitor σ) (limit : Nat) (state : σ) : List HookCall :=
  (traverse root visitor.logged limit (state, [])).log

/-- A call is made where its node is. -/
structure HookCall.PlacedIn (root : Node) (c : HookCall) : Prop where
  get : root.get c.path = some c.node
  depth : c.place.depth = c.path.length
  ancestors : c.place.ancestors = root.along c.path

theorem HookCall.placedIn_of_reaches {root : Node} (h : Reaches root Place.root c.node c.place) :
    c.PlacedIn root := by
  obtain ⟨path, hget, hpath, hancestors, hlength⟩ := h.spec
  have hpath : c.path = path := hpath
  have hancestors : c.place.ancestors = root.along path := hancestors
  refine ⟨by rw [hpath, hget], ?_, by rw [hpath, hancestors]⟩
  rw [Place.depth_eq, hancestors, hlength, hpath]

theorem withoutLog_traverse (root : Node) (visitor : Visitor σ) (limit : Nat) (state : σ) :
    (traverse root visitor.logged limit (state, [])).withoutLog =
      traverse root visitor limit state := by
  have htour := withoutLog_tour visitor limit root Place.root
    (Traversal.start (state, []))
  rw [traverse_eq_tour, traverse_eq_tour]
  exact (congrArg Prod.fst htour).symm

/-- The calls of a walk come one before the other, and its script holds the changes that they asked
for. -/
theorem hookCalls_spec (root : Node) (visitor : Visitor σ) (limit : Nat) (state : σ) :
    CallsIn root Place.root (hookCalls root visitor limit state) ∧
      (traverse root visitor limit state).edits =
        (hookCalls root visitor limit state).foldl HookCall.note [] := by
  obtain ⟨calls, hadds, hcalls⟩ := tour_calls visitor limit root Place.root
    (Traversal.start (state, []))
  rw [← traverse_eq_tour] at hadds
  have hlog : hookCalls root visitor limit state = calls := hadds.log
  rw [hlog, ← withoutLog_traverse]
  exact ⟨hcalls, hadds.edits⟩

end MarkupEdit.Tree
