import MarkupEdit.Text.Point
import MarkupEdit.Tree.Traversal

/-!
# The walk is the recursion

A walk keeps three stacks: the open nodes, the nodes around the current one, and its path. They grow
and shrink at different moments, but whatever a visitor asks for, they stay in step.

* `enterNode_eq`, `leaveNode_eq`: what the hooks do to the result of a walk.
* `visitNode_cases`, `walkStep_cases`: what a step does to the stacks.
* `resume`: what is left of a walk, by recursion.
* `resumed_walkStep`: **a step of the walk does the first part of what is left.**
* `traverse_eq_tour`: **a walk is the recursion.**
-/

namespace MarkupEdit.Tree

variable {σ : Type} {visitor : Visitor σ} {limit : Nat}

/-! ## Hooks -/

/-- What is done behind the entry of a node. -/
def Control.onward (control : Control) : Onward :=
  if control.stop then .halt
  else if control.edit.isSome then .settled
  else if control.skip then .leave
  else .descend

/-- Ends a walk if a visitor asks for it. -/
def Traversal.stoppedIf (t : Traversal σ) (stop : Bool) : Traversal σ :=
  if stop then { t with completion := .stopped } else t

theorem enterNode_deep {place : Place} (h : limit < place.depth) (node : Node) (t : Traversal σ) :
    enterNode visitor limit node place t =
      ({ t with completion := .depthLimitExceeded limit }, .halt) := if_pos h

theorem enterNode_eq {place : Place} (h : ¬ limit < place.depth) {node : Node} {t : Traversal σ}
    {state : σ} {control : Control} (hv : visitor.enter node place t.state = (state, control)) :
    enterNode visitor limit node place t =
      ((({ t with visited := t.visited + 1, state := state } : Traversal σ).note place
        control.edit).stoppedIf control.stop, control.onward) := by
  obtain ⟨stop, skip, edit⟩ := control
  simp only [enterNode, if_neg h, hv, Control.onward]
  cases stop <;> cases skip <;> cases edit <;> rfl

theorem leaveNode_eq {node : Node} {place : Place} {t : Traversal σ} {state : σ} {control : Control}
    (hv : visitor.leave node place t.state = (state, control)) :
    leaveNode visitor node place t =
      ((({ t with state := state } : Traversal σ).note place control.edit).stoppedIf control.stop,
        !control.stop) := by
  obtain ⟨stop, skip, edit⟩ := control
  simp only [leaveNode, hv]
  cases stop <;> rfl

/-! ## The recursion -/

theorem Node.count_eq (n : Node) : n.count = countAll n.children + 1 := by
  cases n
  rfl

/-- The recursion at a node, by what its entry tells to do. -/
theorem tour_eq (visitor : Visitor σ) (limit : Nat) (node : Node) (place : Place) (t : Traversal σ) :
    tour visitor limit node place t =
      match enterNode visitor limit node place t with
      | (t, .halt) => (t, false)
      | (t, .settled) => (t, true)
      | (t, .leave) => leaveNode visitor node place t
      | (t, .descend) =>
        match tourAll visitor limit node place 0 node.children t with
        | (t, true) => leaveNode visitor node place t
        | (t, false) => (t, false) := by
  cases node
  simp only [tour, enterNode]
  by_cases hdeep : limit < place.depth
  · simp only [if_pos hdeep]
  simp only [if_neg hdeep]
  cases (visitor.enter _ place t.state).2.stop with
  | true => rfl
  | false =>
    cases (visitor.enter _ place t.state).2.edit.isSome with
    | true => rfl
    | false => cases (visitor.enter _ place t.state).2.skip <;> rfl

/-! ## What a step does to the stacks -/

/-- A node that is done leaves the path, and an open one joins the stacks. -/
theorem visitNode_cases {node : Node} {w w' : Walker σ}
    (h : visitNode visitor limit node w = (w', true)) :
    (w'.frames = w.frames ∧ w'.place = w.place.unstep) ∨
      (w'.frames = (node, 0) :: w.frames ∧ w'.place = w.place.within node) := by
  rw [visitNode] at h
  rcases henter : enterNode visitor limit node w.place w.result with ⟨t, onward⟩
  rw [henter] at h
  cases onward with
  | halt => cases h
  | settled =>
    cases h
    exact .inl ⟨rfl, rfl⟩
  | leave =>
    dsimp only at h
    rcases hleave : leaveNode visitor node w.place t with ⟨t, _ | _⟩ <;> rw [hleave] at h <;>
      cases h
    exact .inl ⟨rfl, rfl⟩
  | descend =>
    cases h
    exact .inr ⟨rfl, rfl⟩

/-- Either the innermost open node leaves the stacks, or its next child has been visited, which may
now be open itself. -/
theorem walkStep_cases {w w' : Walker σ} (h : walkStep visitor limit w = (w', true)) :
    ∃ node index frames, w.frames = (node, index) :: frames ∧
      ((w'.frames = frames ∧ w'.place = w.place.outside.unstep) ∨
        ∃ child, node.children[index]? = some child ∧
          ((w'.frames = (node, index + 1) :: frames ∧ w'.place = w.place) ∨
            (w'.frames = (child, 0) :: (node, index + 1) :: frames ∧
              w'.place = (w.place.step index).within child))) := by
  rw [walkStep] at h
  rcases hframes : w.frames with _ | ⟨⟨node, index⟩, frames⟩ <;> rw [hframes] at h
  · cases h
  refine ⟨node, index, frames, rfl, ?_⟩
  dsimp only at h
  cases hchild : node.children[index]? with
  | none =>
    rw [hchild] at h
    dsimp only at h
    rcases hleave : leaveNode visitor node w.place.outside w.result with ⟨t, _ | _⟩ <;>
      rw [hleave] at h <;> cases h
    exact .inl ⟨rfl, rfl⟩
  | some child =>
    rw [hchild] at h
    exact .inr ⟨child, rfl, visitNode_cases h⟩

namespace Walker

/-- The nodes around the current one are the open nodes. -/
def Aligned (w : Walker σ) : Prop := w.place.above = w.frames.map Prod.fst

/-- The number of steps that are left at most. -/
def weight (w : Walker σ) : Nat :=
  Text.total (fun frame => 2 * Node.countAll (frame.1.children.drop frame.2) + 1) w.frames

/-- **The stacks stay in step.** -/
theorem aligned_walkStep {w w' : Walker σ} (h : w.Aligned)
    (hstep : walkStep visitor limit w = (w', true)) : w'.Aligned := by
  obtain ⟨node, index, frames, hframes, hcases⟩ := walkStep_cases hstep
  rw [Aligned, hframes] at h
  rw [Aligned]
  obtain ⟨hf, hp⟩ | ⟨child, -, ⟨hf, hp⟩ | ⟨hf, hp⟩⟩ := hcases
  · rw [hf, hp]
    exact congrArg List.tail h
  · rw [hf, hp]
    exact h
  · rw [hf, hp]
    exact congrArg (child :: ·) h

theorem weight_walkStep {w w' : Walker σ} (hstep : walkStep visitor limit w = (w', true)) :
    w'.weight < w.weight := by
  obtain ⟨node, index, frames, hframes, ⟨hf, -⟩ | ⟨child, hchild, h⟩⟩ := walkStep_cases hstep
  · simp only [weight, hframes, hf, Text.total_cons]
    omega
  · have hcount : Node.countAll (node.children.drop index) =
        Node.countAll child.children + 1 + Node.countAll (node.children.drop (index + 1)) := by
      obtain ⟨hi, rfl⟩ := List.getElem?_eq_some_iff.mp hchild
      rw [List.drop_eq_getElem_cons hi, Node.countAll, Node.count_eq]
    rcases h with ⟨hf, -⟩ | ⟨hf, -⟩ <;>
      simp only [weight, hframes, hf, Text.total_cons, List.drop_zero] <;> omega

end Walker

/-! ## What is left of a walk -/

/-- What is left of a walk: the children that the innermost open node still has, its end, and then
what is left around it. -/
def resume (visitor : Visitor σ) (limit : Nat) :
    List (Node × Nat) → Place → Traversal σ → Traversal σ
  | [], _, t => t
  | (node, index) :: frames, place, t =>
    match tourAll visitor limit node place.outside index (node.children.drop index) t with
    | (t, false) => t
    | (t, true) =>
      match leaveNode visitor node place.outside t with
      | (t, false) => t
      | (t, true) => resume visitor limit frames place.outside.unstep t

/-- What comes out of a walk in the end, if it goes on or if it is over. -/
def resumed (visitor : Visitor σ) (limit : Nat) : Walker σ × Bool → Traversal σ
  | (w, true) => resume visitor limit w.frames w.place w.result
  | (w, false) => w.result

/-- Entering a node does what the recursion does there, and leaves the rest of the walk. -/
theorem resumed_visitNode (node : Node) (w : Walker σ) :
    resumed visitor limit (visitNode visitor limit node w) =
      match tour visitor limit node w.place w.result with
      | (t, true) => resume visitor limit w.frames w.place.unstep t
      | (t, false) => t := by
  rw [visitNode, tour_eq]
  rcases enterNode visitor limit node w.place w.result with ⟨t, onward⟩
  cases onward with
  | halt => rfl
  | settled => rfl
  | leave =>
    dsimp only
    rcases leaveNode visitor node w.place t with ⟨t, _ | _⟩ <;> rfl
  | descend =>
    -- the place inside the node, without the node, is the place of the node again
    have houtside : (w.place.within node).outside = w.place := rfl
    simp only [resumed, resume, houtside, List.drop_zero]
    rcases tourAll visitor limit node w.place 0 node.children t with ⟨t, _ | _⟩
    · rfl
    · dsimp only
      rcases leaveNode visitor node w.place t with ⟨t, _ | _⟩ <;> rfl

/-- **A step of the walk does the first part of what is left.** -/
theorem resumed_walkStep (w : Walker σ) (h : w.Aligned) :
    resumed visitor limit (walkStep visitor limit w) =
      resume visitor limit w.frames w.place w.result := by
  obtain ⟨frames, place, t⟩ := w
  rcases frames with _ | ⟨⟨node, index⟩, frames⟩
  · rfl
  cases hchild : node.children[index]? with
  | none =>
    have hdrop : node.children.drop index = [] :=
      List.drop_eq_nil_iff.mpr (List.getElem?_eq_none_iff.mp hchild)
    simp only [walkStep, hchild, resume, hdrop, tourAll]
    rcases leaveNode visitor node place.outside t with ⟨t, _ | _⟩ <;> rfl
  | some child =>
    have hdrop : node.children.drop index = child :: node.children.drop (index + 1) := by
      obtain ⟨hi, rfl⟩ := List.getElem?_eq_some_iff.mp hchild
      exact List.drop_eq_getElem_cons hi
    -- the node around the child is the one whose children are being walked
    have hplace : place.outside.child node index = place.step index := by
      obtain ⟨above, steps⟩ := place
      have habove : above = node :: frames.map Prod.fst := h
      rw [habove]
      rfl
    simp only [walkStep, hchild, resumed_visitNode, resume, hdrop, tourAll, hplace]
    rcases tour visitor limit child (place.step index) t with ⟨t, _ | _⟩ <;> rfl

/-- With enough fuel a walk does all that is left. -/
theorem walk_eq_resume {fuel : Nat} {w : Walker σ} (h : w.Aligned) (hfuel : w.weight ≤ fuel) :
    walk visitor limit fuel w = resume visitor limit w.frames w.place w.result := by
  induction fuel generalizing w with
  | zero =>
    obtain ⟨_ | ⟨frame, frames⟩, place, t⟩ := w
    · rfl
    · simp [Walker.weight] at hfuel
  | succ fuel ih =>
    rw [walk, ← resumed_walkStep w h]
    rcases hstep : walkStep visitor limit w with ⟨w', _ | _⟩
    · rfl
    · have hless := Walker.weight_walkStep hstep
      exact ih (Walker.aligned_walkStep h hstep) (by omega)

/-- **A walk is the recursion.** -/
theorem traverse_eq_tour (root : Node) (visitor : Visitor σ) (limit : Nat) (state : σ) :
    traverse root visitor limit state =
      (tour visitor limit root Place.root (Traversal.start state)).1 := by
  have hrest : resumed visitor limit
      (visitNode visitor limit root ⟨[], Place.root, Traversal.start state⟩) =
        (tour visitor limit root Place.root (Traversal.start state)).1 := by
    rw [resumed_visitNode]
    rcases tour visitor limit root Place.root (Traversal.start state) with ⟨t, _ | _⟩ <;> rfl
  rw [traverse, ← hrest]
  rcases hvisit : visitNode visitor limit root ⟨[], Place.root, Traversal.start state⟩ with
    ⟨w, _ | _⟩
  · rfl
  refine walk_eq_resume ?_ ?_
  · obtain ⟨hf, hp⟩ | ⟨hf, hp⟩ := visitNode_cases hvisit <;>
      rw [Walker.Aligned, hf, hp] <;> rfl
  · have hcount := root.count_eq
    obtain ⟨hf, -⟩ | ⟨hf, -⟩ := visitNode_cases hvisit
    · rw [Walker.weight, hf]
      exact Nat.zero_le _
    · simp only [Walker.weight, hf, Text.total_cons, Text.total_nil, List.drop_zero]
      omega

end MarkupEdit.Tree
