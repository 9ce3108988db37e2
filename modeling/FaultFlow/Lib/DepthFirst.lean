/-
# Depth-first search for a cycle

The iterative search over a finite graph that keeps a stack of frames, each a
vertex and the number of its successors taken so far.  A vertex is white before
it enters the stack, gray while it is there and black afterwards; an edge into
a gray vertex closes a cycle, and the path from that vertex on is returned.

`DfsInv` says what every round keeps, `dfsStep_spec` is the round and
`walk_spec` the loop: it ends, with a cycle or with all that it entered black.
Black vertices are on no cycle (`Done`), so a search from every vertex with a
successor decides whether there is one (`findCycle_spec`).
-/

import Mathlib.Algebra.BigOperators.Group.Finset.Basic
import Mathlib.Algebra.GroupWithZero.Nat
import Mathlib.Algebra.Order.BigOperators.Group.Finset
import Mathlib.Data.List.Chain
import Mathlib.Logic.Relation
import FaultFlow.Lib.Loop

namespace FaultFlow.Lib

variable {α : Type*} [DecidableEq α]

/-- The color of a vertex: not reached, on the path, or left. -/
inductive Color where
  | white
  | gray
  | black
deriving DecidableEq, Repr

theorem Color.eq_black {c : Color} (hw : c ≠ .white) (hg : c ≠ .gray) : c = .black := by
  cases c with
  | white => exact absurd rfl hw
  | gray => exact absurd rfl hg
  | black => rfl

/-- The colours, the stack with its top first, and the vertices of the stack
from the root on. -/
structure Dfs (α : Type*) where
  color : α → Color
  stack : List (α × ℕ)
  path : List α

/-- One round, with the top frame `(node, idx)` over `rest`: take the next
successor of the top, or leave it.  An error is a cycle. -/
def dfsStep (next : α → List α) (st : Dfs α) (node : α) (idx : ℕ) (rest : List (α × ℕ)) :
    Except (List α) (Dfs α) :=
  match (next node)[idx]? with
  | some nxt =>
    match st.color nxt with
    | .gray => .error (st.path.dropWhile (· ≠ nxt) ++ [nxt])
    | .white => .ok
        { color := Function.update st.color nxt .gray
          stack := (nxt, 0) :: (node, idx + 1) :: rest
          path := st.path ++ [nxt] }
    | .black => .ok { st with stack := (node, idx + 1) :: rest }
  | none => .ok
      { color := Function.update st.color node .black
        stack := rest
        path := if st.path.getLast? = some node then st.path.dropLast else st.path }

/-- The rounds until the stack is empty; `none` if the fuel does not suffice. -/
def walk (next : α → List α) : ℕ → Dfs α → Option (Except (List α) (Dfs α))
  | 0, _ => none
  | fuel + 1, st =>
    match st.stack with
    | [] => some (.ok st)
    | (node, idx) :: rest =>
      match dfsStep next st node idx rest with
      | .error p => some (.error p)
      | .ok st' => walk next fuel st'

/-- A vertex enters the empty stack. -/
def Dfs.enter (color : α → Color) (root : α) : Dfs α :=
  ⟨Function.update color root .gray, [(root, 0)], [root]⟩

/-- The search from each white root in turn, up to the first cycle; `none` if
the fuel of a walk does not suffice. -/
def findCycle (next : α → List α) (fuel : ℕ) : List α → (α → Color) → Option (Option (List α))
  | [], _ => some none
  | root :: roots, color =>
    if color root ≠ .white then findCycle next fuel roots color
    else
      match walk next fuel (Dfs.enter color root) with
      | none => none
      | some (.error p) => some (some p)
      | some (.ok st) => findCycle next fuel roots st.color

/-! ### Cycles -/

/-- The list runs once around a cycle: it starts and ends at one vertex and
visits no other vertex twice. -/
def IsCycle (R : α → α → Prop) (p : List α) : Prop :=
  ∃ x l, p = x :: l ++ [x] ∧ (x :: l).Nodup ∧ p.IsChain R

variable {R : α → α → Prop} {p : List α}

omit [DecidableEq α] in
/-- A chain leads from its first vertex to its last. -/
theorem transGen_of_isChain {x y : α} {l : List α} (h : (x :: l ++ [y]).IsChain R) :
    Relation.TransGen R x y := by
  induction l generalizing x with
  | nil => exact .single (List.isChain_pair.1 h)
  | cons z l ih =>
    have h' := List.isChain_cons_cons.1 h
    exact .head h'.1 (ih h'.2)

omit [DecidableEq α] in
/-- A vertex of a cycle reaches itself. -/
theorem IsCycle.transGen (h : IsCycle R p) : ∃ x, Relation.TransGen R x x := by
  obtain ⟨x, l, rfl, -, hchain⟩ := h
  exact ⟨x, transGen_of_isChain hchain⟩

omit [DecidableEq α] in
/-- A cycle of fewer edges is one of more. -/
theorem IsCycle.mono {S : α → α → Prop} (hRS : ∀ a b, R a b → S a b) (h : IsCycle R p) :
    IsCycle S p := by
  obtain ⟨x, l, hp, hnd, hchain⟩ := h
  exact ⟨x, l, hp, hnd, hchain.imp hRS⟩

section Search

variable {next : α → List α}

variable (next) in
/-- A set that contains the successors of its members, none of which is on a
cycle. -/
structure Done (S : Set α) : Prop where
  closed : ∀ x ∈ S, ∀ y ∈ next x, y ∈ S
  acyclic : ∀ x ∈ S, ¬ Relation.TransGen (fun a b => b ∈ next a) x x

variable {S : Set α} {node nxt : α} {U : Finset α} {roots : List α}

omit [DecidableEq α] in
/-- What a finished set reaches is in it. -/
theorem Done.transGen (h : Done next S) {x y : α} (hx : x ∈ S)
    (hxy : Relation.TransGen (fun a b => b ∈ next a) x y) : y ∈ S := by
  induction hxy with
  | single hstep => exact h.closed _ hx _ hstep
  | tail _ hstep ih => exact h.closed _ ih _ hstep

variable {x : α}

omit [DecidableEq α] in
/-- A vertex whose successors are done is done. -/
theorem Done.insert (h : Done next S) (hx : x ∉ S) (hnext : ∀ y ∈ next x, y ∈ S) :
    Done next (insert x S) where
  closed := by
    rintro y (rfl | hy) z hz
    · exact .inr (hnext z hz)
    · exact .inr (h.closed y hy z hz)
  acyclic := by
    rintro y (rfl | hy) hcycle
    · -- the cycle leaves for a done vertex and cannot come back
      obtain ⟨z, hz, hback⟩ := Relation.TransGen.head'_iff.1 hcycle
      rcases Relation.reflTransGen_iff_eq_or_transGen.1 hback with rfl | hback
      · exact hx (hnext _ hz)
      · exact hx (h.transGen (hnext z hz) hback)
    · exact h.acyclic y hy hcycle

/-- The black vertices. -/
def blacks (color : α → Color) : Set α := {x | color x = .black}

variable (next) in
/-- The frame under the vertex `child`: it has just taken `child`, after
successors that are black. -/
def Took (color : α → Color) (child : α) (frame : α × ℕ) : Prop :=
  ∃ i, frame.2 = i + 1 ∧ (next frame.1)[i]? = some child ∧
    ∀ y ∈ (next frame.1).take i, color y = .black

variable (next) in
/-- What the rounds keep. -/
structure DfsInv (st : Dfs α) : Prop where
  path : st.path.reverse = st.stack.map Prod.fst
  nodup : st.path.Nodup
  gray : ∀ x, st.color x = .gray ↔ x ∈ st.path
  frames : st.stack.IsChain fun f g => Took next st.color f.1 g
  top : ∀ f ∈ st.stack.head?, ∀ y ∈ (next f.1).take f.2, st.color y = .black
  done : Done next (blacks st.color)

omit [DecidableEq α] in
/-- What a frame took it has taken when more vertices are black. -/
theorem Took.mono {color color' : α → Color} {child : α} {frame : α × ℕ}
    (hc : ∀ x, color x = .black → color' x = .black) (h : Took next color child frame) :
    Took next color' child frame := by
  obtain ⟨i, hi, hchild, hbefore⟩ := h
  exact ⟨i, hi, hchild, fun y hy => hc y (hbefore y hy)⟩

variable {st : Dfs α}

omit [DecidableEq α] in
/-- The path has the vertices of the stack. -/
theorem DfsInv.mem_path (h : DfsInv next st) :
    x ∈ st.path ↔ x ∈ st.stack.map Prod.fst := by
  rw [← h.path, List.mem_reverse]

omit [DecidableEq α] in
/-- The path follows edges. -/
theorem DfsInv.isChain (h : DfsInv next st) :
    st.path.IsChain fun a b => b ∈ next a := by
  have hstack : (st.stack.map Prod.fst).IsChain fun b a => b ∈ next a := by
    rw [List.isChain_map]
    exact h.frames.imp fun f g ⟨i, _, hi, _⟩ => List.mem_of_getElem? hi
  rw [← h.path, List.isChain_reverse] at hstack
  exact hstack

variable {idx : ℕ} {rest : List (α × ℕ)}

omit [DecidableEq α] in
/-- The path ends in the vertex at the top. -/
theorem DfsInv.path_eq (h : DfsInv next st) (hst : st.stack = (node, idx) :: rest) :
    st.path = (rest.map Prod.fst).reverse ++ [node] := by
  have hrev := congrArg List.reverse h.path
  rwa [List.reverse_reverse, hst, List.map_cons, List.reverse_cons] at hrev

/-- An edge from the top into the path closes a cycle. -/
theorem DfsInv.isCycle (h : DfsInv next st) (hst : st.stack = (node, idx) :: rest)
    (hnxt : nxt ∈ next node) (hgray : st.color nxt = .gray) :
    IsCycle (fun a b => b ∈ next a) (st.path.dropWhile (· ≠ nxt) ++ [nxt]) := by
  -- the path splits at `nxt`, where the reported part begins
  obtain ⟨pre, post, hsplit⟩ := List.append_of_mem ((h.gray nxt).1 hgray)
  have hpre : nxt ∉ pre := by
    have hnd := h.nodup
    rw [hsplit, List.nodup_append] at hnd
    exact fun hmem => hnd.2.2 nxt hmem nxt List.mem_cons_self rfl
  have hdrop : st.path.dropWhile (· ≠ nxt) = nxt :: post := by
    have hne : ∀ a ∈ pre, decide (a ≠ nxt) = true := fun a ha =>
      decide_eq_true fun e => hpre (e ▸ ha)
    rw [hsplit, List.dropWhile_append_of_pos hne, List.dropWhile_cons_of_neg (by simp)]
  have hsuffix : (nxt :: post) <:+ st.path := ⟨pre, hsplit.symm⟩
  have hlast : (nxt :: post).getLast? = some node := by
    have hpath : (pre ++ nxt :: post).getLast? = some node := by
      rw [← hsplit, h.path_eq hst, List.getLast?_concat]
    rwa [List.getLast?_append_of_ne_nil _ (List.cons_ne_nil _ _)] at hpath
  refine ⟨nxt, post, by rw [hdrop], hsuffix.sublist.nodup h.nodup, ?_⟩
  rw [hdrop, List.isChain_append]
  refine ⟨h.isChain.suffix hsuffix, List.isChain_singleton _, fun a ha b hb => ?_⟩
  rw [hlast, Option.mem_some_iff] at ha
  rw [List.head?_cons, Option.mem_some_iff] at hb
  rwa [← ha, ← hb]

/-- A white successor enters. -/
theorem DfsInv.push (h : DfsInv next st) (hst : st.stack = (node, idx) :: rest)
    (hnxt : (next node)[idx]? = some nxt) (hwhite : st.color nxt = .white) :
    DfsInv next ⟨Function.update st.color nxt .gray, (nxt, 0) :: (node, idx + 1) :: rest,
      st.path ++ [nxt]⟩ := by
  have hnew : nxt ∉ st.path := fun hmem => by
    rw [← h.gray, hwhite] at hmem
    cases hmem
  -- no vertex turns black or stops being black
  have hblack : ∀ x, Function.update st.color nxt .gray x = .black ↔ st.color x = .black := by
    intro x
    by_cases hx : x = nxt
    · subst hx
      simp [hwhite]
    · rw [Function.update_of_ne hx]
  have hframes := h.frames
  rw [hst] at hframes
  refine ⟨?_, ?_, ?_, ?_, ?_, ?_⟩
  · rw [List.reverse_append, h.path, hst]
    rfl
  · exact h.nodup.append (List.nodup_singleton _) (by simpa using hnew)
  · intro x
    dsimp only
    by_cases hx : x = nxt
    · subst hx
      simp
    · rw [Function.update_of_ne hx, h.gray, List.mem_append, List.mem_singleton]
      simp [hx]
  · refine List.isChain_cons_cons.2 ⟨⟨idx, rfl, hnxt, fun y hy => (hblack y).2 ?_⟩, ?_⟩
    · exact h.top (node, idx) (by rw [hst]; rfl) y hy
    · -- the frames below see the same vertex above them
      have hmono : ((node, idx) :: rest).IsChain fun f g =>
          Took next (Function.update st.color nxt .gray) f.1 g :=
        hframes.imp fun f g hfg => hfg.mono fun x hx => (hblack x).2 hx
      cases rest with
      | nil => exact List.isChain_singleton _
      | cons g rest => exact List.isChain_cons_cons.2 (List.isChain_cons_cons.1 hmono)
  · rintro f hf y hy
    cases hf
    simp at hy
  · have hset : blacks (Function.update st.color nxt .gray) = blacks st.color :=
      Set.ext fun x => hblack x
    rw [hset]
    exact h.done

omit [DecidableEq α] in
/-- A black successor is passed over. -/
theorem DfsInv.skip (h : DfsInv next st) (hst : st.stack = (node, idx) :: rest)
    (hnxt : (next node)[idx]? = some nxt) (hblack : st.color nxt = .black) :
    DfsInv next { st with stack := (node, idx + 1) :: rest } := by
  have hframes := h.frames
  rw [hst] at hframes
  refine ⟨?_, h.nodup, h.gray, ?_, ?_, h.done⟩
  · rw [h.path, hst]
    rfl
  · cases rest with
    | nil => exact List.isChain_singleton _
    | cons g rest => exact List.isChain_cons_cons.2 (List.isChain_cons_cons.1 hframes)
  · rintro f hf y hy
    cases hf
    rw [List.take_add_one, hnxt, Option.toList_some, List.mem_append, List.mem_singleton] at hy
    rcases hy with hy | rfl
    · exact h.top (node, idx) (by rw [hst]; rfl) y hy
    · exact hblack

/-- A vertex without further successors leaves. -/
theorem DfsInv.pop (h : DfsInv next st) (hst : st.stack = (node, idx) :: rest)
    (hnone : (next node)[idx]? = none) :
    DfsInv next ⟨Function.update st.color node .black, rest,
      if st.path.getLast? = some node then st.path.dropLast else st.path⟩ := by
  have hpath := h.path_eq hst
  have hgray : st.color node = .gray := (h.gray node).2 (by simp [hpath])
  have hrest : (if st.path.getLast? = some node then st.path.dropLast else st.path) =
      (rest.map Prod.fst).reverse := by
    rw [hpath, List.getLast?_concat, if_pos rfl, List.dropLast_concat]
  have hnd : (rest.map Prod.fst).reverse.Nodup ∧ node ∉ (rest.map Prod.fst).reverse := by
    have := h.nodup
    rw [hpath, List.nodup_append] at this
    exact ⟨this.1, fun hmem => this.2.2 node hmem node (by simp) rfl⟩
  have hblack : ∀ x, st.color x = .black → Function.update st.color node .black x = .black := by
    intro x hx
    by_cases hxn : x = node
    · rw [hxn, Function.update_self]
    · rwa [Function.update_of_ne hxn]
  -- the frame has taken all successors, so all are black
  have hall : ∀ y ∈ next node, st.color y = .black := by
    intro y hy
    refine h.top (node, idx) (by rw [hst]; rfl) y ?_
    rwa [List.take_of_length_le (List.getElem?_eq_none_iff.1 hnone)]
  have hframes := h.frames
  rw [hst] at hframes
  rw [hrest]
  refine ⟨List.reverse_reverse _, hnd.1, ?_, ?_, ?_, ?_⟩
  · intro x
    dsimp only
    by_cases hx : x = node
    · subst hx
      rw [Function.update_self]
      exact ⟨nofun, fun hmem => absurd hmem hnd.2⟩
    · rw [Function.update_of_ne hx, h.gray, hpath, List.mem_append, List.mem_singleton]
      simp [hx]
  · exact (hframes.tail).imp fun f g hfg => hfg.mono hblack
  · intro f hf y hy
    cases rest with
    | nil => cases hf
    | cons g rest =>
      cases hf
      obtain ⟨i, hi, hchild, hbefore⟩ := (List.isChain_cons_cons.1 hframes).1
      rw [hi, List.take_add_one, hchild, Option.toList_some, List.mem_append,
        List.mem_singleton] at hy
      rcases hy with hy | rfl
      · exact hblack y (hbefore y hy)
      · exact Function.update_self ..
  · have hset : blacks (Function.update st.color node .black) = insert node (blacks st.color) := by
      ext x
      by_cases hx : x = node
      · simp [blacks, hx]
      · simp [blacks, hx]
    rw [hset]
    exact h.done.insert (fun hb => by simp [blacks, hgray] at hb) hall

/-! ### The loop ends -/

variable (next) in
/-- The rounds that the white vertices of `U` can still bring. -/
def unseen (U : Finset α) (color : α → Color) : ℕ :=
  ∑ x ∈ U with color x = .white, ((next x).length + 1)

variable (next) in
/-- A bound on the rounds that are left. -/
def Dfs.todo (U : Finset α) (st : Dfs α) : ℕ :=
  unseen next U st.color + (st.stack.map fun f => (next f.1).length - f.2 + 1).sum

variable {color : α → Color}

variable (next) in
/-- Entering a vertex pays for it and its edges. -/
theorem unseen_update_gray (hx : x ∈ U) (hwhite : color x = .white) :
    unseen next U (Function.update color x .gray) + ((next x).length + 1) =
      unseen next U color := by
  have hset : (U.filter fun y => Function.update color x .gray y = .white) =
      (U.filter fun y => color y = .white).erase x := by
    ext y
    by_cases hy : y = x
    · simp [hy]
    · simp [hy]
  rw [unseen, hset, unseen]
  exact Finset.sum_erase_add _ _ (Finset.mem_filter.2 ⟨hx, hwhite⟩)

/-- Leaving a vertex changes nothing. -/
theorem unseen_update_black (hgray : color x = .gray) :
    unseen next U (Function.update color x .black) = unseen next U color := by
  have hset : (U.filter fun y => Function.update color x .black y = .white) =
      U.filter fun y => color y = .white := by
    ext y
    by_cases hy : y = x
    · simp [hy, hgray]
    · simp [Function.update_of_ne hy]
  rw [unseen, hset, unseen]

variable (hU : ∀ x ∈ U, ∀ y ∈ next x, y ∈ U)

include hU in
/-- **One round** closes a cycle, or keeps the invariant and comes nearer to
the end. -/
theorem dfsStep_spec (h : DfsInv next st) (hin : ∀ f ∈ st.stack, f.1 ∈ U)
    (hst : st.stack = (node, idx) :: rest) :
    Ends (dfsStep next st node idx rest)
      (fun st' => DfsInv next st' ∧ (∀ f ∈ st'.stack, f.1 ∈ U) ∧
        st'.todo next U < st.todo next U ∧ ∀ x, st.color x ≠ .white → st'.color x ≠ .white)
      (IsCycle fun a b => b ∈ next a) := by
  rw [hst] at hin
  have hnode : node ∈ U := hin (node, idx) (.head _)
  have hrest : ∀ f ∈ rest, f.1 ∈ U := fun f hf => hin f (.tail _ hf)
  have htodo : st.todo next U = unseen next U st.color +
      ((next node).length - idx + 1 + (rest.map fun f => (next f.1).length - f.2 + 1).sum) := by
    rw [Dfs.todo, hst, List.map_cons, List.sum_cons]
  unfold dfsStep
  cases hnxt : (next node)[idx]? with
  | none =>
    have hgray : st.color node = .gray := (h.gray node).2 (by simp [h.path_eq hst])
    refine ⟨h.pop hst hnxt, hrest, ?_, fun x hx => ?_⟩
    · rw [htodo, Dfs.todo, unseen_update_black hgray]
      dsimp only
      omega
    · dsimp only
      by_cases hxn : x = node
      · simp [hxn]
      · rwa [Function.update_of_ne hxn]
  | some nxt =>
    have hlt : idx < (next node).length := (List.getElem?_eq_some_iff.1 hnxt).1
    have hmem : nxt ∈ next node := List.mem_of_getElem? hnxt
    cases hcolor : st.color nxt with
    | gray =>
      simp only [hcolor]
      exact h.isCycle hst hmem hcolor
    | black =>
      simp only [hcolor]
      refine ⟨h.skip hst hnxt hcolor, ?_, ?_, fun x hx => hx⟩
      · rintro f (_ | ⟨_, hf⟩)
        · exact hnode
        · exact hrest f hf
      · rw [htodo, Dfs.todo, List.map_cons, List.sum_cons]
        dsimp only
        omega
    | white =>
      simp only [hcolor]
      have hsum := unseen_update_gray next (hU node hnode nxt hmem) hcolor
      refine ⟨h.push hst hnxt hcolor, ?_, ?_, fun x hx => ?_⟩
      · rintro f (_ | ⟨_, _ | ⟨_, hf⟩⟩)
        · exact hU node hnode nxt hmem
        · exact hnode
        · exact hrest f hf
      · rw [htodo, Dfs.todo, List.map_cons, List.map_cons, List.sum_cons, List.sum_cons]
        dsimp only
        omega
      · dsimp only
        by_cases hxn : x = nxt
        · simp [hxn]
        · rwa [Function.update_of_ne hxn]

variable {fuel : ℕ}

include hU in
/-- **The loop ends**, with a cycle or with an empty stack. -/
theorem walk_spec (h : DfsInv next st) (hin : ∀ f ∈ st.stack, f.1 ∈ U)
    (hfuel : st.todo next U < fuel) :
    ∃ r, walk next fuel st = some r ∧
      Ends r (fun st' => DfsInv next st' ∧ st'.stack = [] ∧
          st'.todo next U ≤ st.todo next U ∧ ∀ x, st.color x ≠ .white → st'.color x ≠ .white)
        (IsCycle fun a b => b ∈ next a) := by
  induction fuel generalizing st with
  | zero => omega
  | succ fuel ih =>
    cases hst : st.stack with
    | nil =>
      refine ⟨.ok st, ?_, h, hst, le_rfl, fun x hx => hx⟩
      rw [walk, hst]
    | cons f rest =>
      obtain ⟨node, idx⟩ := f
      have hstep := dfsStep_spec hU h hin hst
      cases hres : dfsStep next st node idx rest with
      | error p =>
        rw [hres] at hstep
        refine ⟨.error p, ?_, hstep⟩
        rw [walk, hst]
        simp only [hres]
      | ok st₁ =>
        rw [hres] at hstep
        obtain ⟨hinv, hin₁, hless, hkept⟩ := hstep
        obtain ⟨r, hr, hends⟩ := ih hinv hin₁ (by omega)
        refine ⟨r, ?_, hends.imp ?_⟩
        · rw [walk, hst]
          simpa only [hres] using hr
        · rintro st' ⟨hinv', hempty, hle, hkept'⟩
          exact ⟨hinv', hempty, by omega, fun x hx => hkept' x (hkept x hx)⟩

omit [DecidableEq α] in
/-- With an empty stack no vertex is on the path. -/
theorem DfsInv.ne_gray (h : DfsInv next st) (hst : st.stack = []) (x : α) :
    st.color x ≠ .gray := by
  intro hgray
  have hmem := h.mem_path.1 ((h.gray x).1 hgray)
  simp [hst] at hmem

/-- The invariant at a new root. -/
theorem DfsInv.enter {root : α} (hgray : ∀ x, color x ≠ .gray) (hdone : Done next (blacks color))
    (hwhite : color root = .white) :
    DfsInv next (Dfs.enter color root) where
  path := rfl
  nodup := List.nodup_singleton _
  gray x := by
    by_cases hx : x = root
    · simp [Dfs.enter, hx]
    · simp [Dfs.enter, hx, hgray x]
  frames := List.isChain_singleton _
  top f hf y hy := by
    cases hf
    simp at hy
  done := by
    have hset : blacks (Dfs.enter color root).color = blacks color := by
      ext x
      by_cases hx : x = root
      · simp [blacks, Dfs.enter, hx, hwhite]
      · simp [blacks, Dfs.enter, Function.update_of_ne hx]
    rw [hset]
    exact hdone

include hU in
/-- The search from the remaining roots. -/
theorem findCycle_inv (hroots : ∀ x ∈ roots, x ∈ U) (hfuel : unseen next U color < fuel)
    (hgray : ∀ x, color x ≠ .gray) (hdone : Done next (blacks color)) :
    ∃ r, findCycle next fuel roots color = some r ∧
      (∀ p ∈ r, IsCycle (fun a b => b ∈ next a) p) ∧
      (r = none → ∃ S, Done next S ∧ (∀ x ∈ roots, x ∈ S) ∧ blacks color ⊆ S) := by
  induction roots generalizing color with
  | nil => exact ⟨none, rfl, nofun, fun _ => ⟨_, hdone, nofun, subset_rfl⟩⟩
  | cons root roots ih =>
    have hroots' : ∀ x ∈ roots, x ∈ U := fun x hx => hroots x (.tail _ hx)
    rw [findCycle]
    by_cases hwhite : color root = .white
    · rw [if_neg (not_not.2 hwhite)]
      have hinv := DfsInv.enter hgray hdone hwhite
      have hsum := unseen_update_gray next (hroots root (.head _)) hwhite
      have htodo : (Dfs.enter color root).todo next U = unseen next U color := by
        simp only [Dfs.todo, Dfs.enter, List.map_cons, List.map_nil, List.sum_cons, List.sum_nil]
        omega
      have hin : ∀ f ∈ (Dfs.enter color root).stack, f.1 ∈ U := by
        simpa [Dfs.enter] using hroots root (.head _)
      obtain ⟨r, hr, hends⟩ := walk_spec hU hinv hin (htodo ▸ hfuel)
      rw [hr]
      cases r with
      | error p => exact ⟨some p, rfl, fun q hq => by cases hq; exact hends, nofun⟩
      | ok st =>
        obtain ⟨hinv', hempty, hle, hkept⟩ := hends
        have hnext : unseen next U st.color < fuel := by
          have : unseen next U st.color ≤ st.todo next U := Nat.le_add_right _ _
          omega
        obtain ⟨r, hr', hcycle, hnone⟩ := ih hroots' hnext (hinv'.ne_gray hempty) hinv'.done
        refine ⟨r, hr', hcycle, fun h => ?_⟩
        obtain ⟨S, hS, hin, hsub⟩ := hnone h
        have hblack : ∀ x, (Dfs.enter color root).color x ≠ .white → x ∈ S := by
          intro x hx
          exact hsub (Color.eq_black (hkept x hx) (hinv'.ne_gray hempty x))
        refine ⟨S, hS, ?_, fun x hx => hblack x ?_⟩
        · rintro x (_ | ⟨_, hx⟩)
          · exact hblack root (by simp [Dfs.enter])
          · exact hin x hx
        · have hxr : x ≠ root := fun e => by
            rw [e] at hx
            simp [blacks, hwhite] at hx
          have hcolor : (Dfs.enter color root).color x = .black :=
            (Function.update_of_ne hxr _ _).trans hx
          rw [hcolor]
          nofun
    · rw [if_pos hwhite]
      obtain ⟨r, hr, hcycle, hnone⟩ := ih hroots' hfuel hgray hdone
      refine ⟨r, hr, hcycle, fun h => ?_⟩
      obtain ⟨S, hS, hin, hsub⟩ := hnone h
      refine ⟨S, hS, ?_, hsub⟩
      rintro x (_ | ⟨_, hx⟩)
      · exact hsub (Color.eq_black hwhite (hgray root))
      · exact hin x hx

include hU in
/-- **The search decides whether there is a cycle.**  Started at every vertex
with a successor, it ends; a path it returns is a cycle, and it returns one if
there is one. -/
theorem findCycle_spec (hroots : ∀ x ∈ roots, x ∈ U) (hall : ∀ x y, y ∈ next x → x ∈ roots)
    (hfuel : unseen next U (fun _ => .white) < fuel) :
    ∃ r, findCycle next fuel roots (fun _ => .white) = some r ∧
      (∀ p ∈ r, IsCycle (fun a b => b ∈ next a) p) ∧
      (r.isSome ↔ ∃ x, Relation.TransGen (fun a b => b ∈ next a) x x) := by
  have hdone : Done next (blacks fun _ => .white) := ⟨nofun, nofun⟩
  obtain ⟨r, hr, hcycle, hnone⟩ := findCycle_inv hU hroots hfuel (fun _ => nofun) hdone
  refine ⟨r, hr, hcycle, fun hsome => ?_, fun ⟨x, hx⟩ => ?_⟩
  · obtain ⟨p, hp⟩ := Option.isSome_iff_exists.1 hsome
    exact (hcycle p hp).transGen
  · cases r with
    | some p => rfl
    | none =>
      obtain ⟨S, hS, hin, -⟩ := hnone rfl
      obtain ⟨y, hy, -⟩ := Relation.TransGen.head'_iff.1 hx
      exact absurd hx (hS.acyclic x (hin x (hall x y hy)))

end Search

end FaultFlow.Lib
