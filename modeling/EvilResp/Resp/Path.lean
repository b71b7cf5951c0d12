import EvilResp.Library.Tree
import EvilResp.Resp.Parser

/-!
# Paths of frames

Recorded mutations name frames by paths such as {lit}`root.0.value.1`.  A path is
built along the walk from the root: an index for a child, with the side of the
pair where the children are pairs.

Main results:

- Theorem {lit}`pathText_injective`: different positions have different paths.
- Theorem {lit}`Frame.branches_rebuild`: new children stand where the old ones stood.
- Theorem {lit}`Frame.mem_visit`: the visited frames are the frames at the positions
  of the tree, under their paths.
-/

namespace EvilResp
namespace Resp

open Library

/-! ## Steps -/

/-- Which part of an element a step leads to. -/
inductive Member where
  | item
  | key
  | value
deriving DecidableEq

/-- What the text of a step says about the member of a pair. -/
def Member.suffix : Member → String
  | item => ""
  | key => ".key"
  | value => ".value"

/-- One step from a frame to a child. -/
structure Step where
  index : Nat
  member : Member := .item
deriving DecidableEq

/-- A step as it is written in a path. -/
def Step.text (step : Step) : String :=
  "." ++ toString step.index ++ step.member.suffix

/-- The path of the frame at a position. -/
def pathText (p : List Step) : String :=
  p.foldl (fun path step => path ++ step.text) "root"

/-- One more step is written at the end. -/
theorem pathText_snoc (p : List Step) (step : Step) :
    pathText (p ++ [step]) = pathText p ++ step.text := by
  simp [pathText]

/-- The characters after the root. -/
def stepChars (p : List Step) : List Char :=
  p.flatMap fun step => step.text.toList

/-- The first step is written first. -/
theorem stepChars_cons (step : Step) (p : List Step) :
    stepChars (step :: p) =
      '.' :: (Nat.repr step.index).toList ++ (step.member.suffix.toList ++ stepChars p) := by
  have hdot : ".".toList = ['.'] := rfl
  simp [stepChars, Step.text, hdot]

/-- A path is written after the name of the root. -/
theorem pathText_eq (p : List Step) : pathText p = "root" ++ String.ofList (stepChars p) := by
  have hfold : ∀ (p : List Step) (before : String),
      p.foldl (fun path step => path ++ step.text) before =
        before ++ String.ofList (stepChars p) := by
    intro p
    induction p with
    | nil =>
        intro before
        simp [stepChars]
    | cons step p ih =>
        intro before
        have hchars : stepChars (step :: p) = step.text.toList ++ stepChars p := rfl
        rw [List.foldl_cons, ih, hchars, String.ofList_append, String.ofList_toList,
          String.append_assoc]
  exact hfold p "root"

/-- A path that goes on after a dot goes on with a digit. -/
theorem isDigit_of_stepChars {p : List Step} {c : Char} {rest : List Char}
    (h : stepChars p = '.' :: c :: rest) : c.isDigit = true := by
  cases p with
  | nil => cases h
  | cons step p =>
      rw [stepChars_cons, List.cons_append, List.cons.injEq] at h
      have hne : (Nat.repr step.index).toList ≠ [] := by
        simp
      obtain ⟨d, digits, hdigits⟩ := List.exists_cons_of_ne_nil hne
      have hd : d.isDigit = true := by
        apply isDigit_of_mem_repr (n := step.index)
        rw [hdigits]
        exact List.mem_cons_self
      rw [hdigits, List.cons_append, List.cons.injEq] at h
      exact h.2.1 ▸ hd

/-- What follows the index of a step does not start with a digit. -/
theorem head_suffix (member : Member) (p : List Step) :
    ∀ c, (member.suffix.toList ++ stepChars p).head? = some c → c.isDigit = false := by
  have hkey : ".key".toList = ['.', 'k', 'e', 'y'] := rfl
  have hvalue : ".value".toList = ['.', 'v', 'a', 'l', 'u', 'e'] := rfl
  have hdot : '.'.isDigit = false := rfl
  cases member with
  | item =>
      cases p with
      | nil => simp [Member.suffix, stepChars]
      | cons step p => simp [Member.suffix, stepChars_cons, hdot]
  | key => simp [Member.suffix, hkey, hdot]
  | value => simp [Member.suffix, hvalue, hdot]

/-- Where the steps begin shows which member was meant, since they begin with a dot. -/
theorem member_inj {member member' : Member} {p q : List Step}
    (h : member.suffix.toList ++ stepChars p = member'.suffix.toList ++ stepChars q) :
    member = member' ∧ stepChars p = stepChars q := by
  have hkey : ".key".toList = ['.', 'k', 'e', 'y'] := rfl
  have hvalue : ".value".toList = ['.', 'v', 'a', 'l', 'u', 'e'] := rfl
  have hk : 'k'.isDigit = false := rfl
  have hv : 'v'.isDigit = false := rfl
  have hdigit {p : List Step} {c : Char} {rest : List Char} (hc : c.isDigit = false) :
      stepChars p ≠ '.' :: c :: rest := by
    intro h
    rw [isDigit_of_stepChars h] at hc
    cases hc
  cases member <;> cases member' <;>
    simp only [Member.suffix, hkey, hvalue, String.toList_empty, List.nil_append,
      List.cons_append] at h
  case item.item => exact ⟨rfl, h⟩
  case key.key => simpa using h
  case value.value => simpa using h
  case item.key => exact absurd h (hdigit hk)
  case item.value => exact absurd h (hdigit hv)
  case key.item => exact absurd h.symm (hdigit hk)
  case value.item => exact absurd h.symm (hdigit hv)
  all_goals simp at h

/-- No two paths are written alike, by induction on the steps. -/
theorem stepChars_injective : Function.Injective stepChars := by
  intro p
  induction p with
  | nil =>
      intro q h
      cases q with
      | nil => rfl
      | cons step q =>
          rw [stepChars_cons] at h
          cases h
  | cons step p ih =>
      intro q h
      cases q with
      | nil =>
          rw [stepChars_cons] at h
          cases h
      | cons step' q =>
          rw [stepChars_cons, stepChars_cons, List.cons_append, List.cons_append,
            List.cons.injEq] at h
          -- The index is the longest run of digits after the dot.
          have hrun : ∀ (step : Step) (p : List Step),
              ((Nat.repr step.index).toList ++ (step.member.suffix.toList ++ stepChars p)).span
                Char.isDigit =
              ((Nat.repr step.index).toList, step.member.suffix.toList ++ stepChars p) := by
            intro step p
            have hdigits : ∀ c ∈ (Nat.repr step.index).toList, c.isDigit = true := fun c hc =>
              isDigit_of_mem_repr hc
            rw [List.span_eq_takeWhile_dropWhile, List.takeWhile_append_of_pos hdigits,
              List.dropWhile_append_of_pos hdigits]
            have hhead := head_suffix step.member p
            cases htail : step.member.suffix.toList ++ stepChars p with
            | nil => simp
            | cons c rest =>
                have hc := hhead c (by rw [htail]; rfl)
                simp [hc]
          have hspan := congrArg (List.span Char.isDigit) h.2
          rw [hrun, hrun, Prod.mk.injEq] at hspan
          obtain ⟨hindex, hrest⟩ := hspan
          obtain ⟨hmember, hchars⟩ := member_inj hrest
          have hsame : step = step' := by
            obtain ⟨index, member⟩ := step
            obtain ⟨index', member'⟩ := step'
            have : index = index' := repr_injective (String.toList_injective hindex)
            simp_all
          rw [hsame, ih hchars]

/-- Different positions have different paths. -/
theorem pathText_injective : Function.Injective pathText := by
  intro p q h
  rw [pathText_eq, pathText_eq] at h
  have hchars := congrArg String.toList h
  simp only [String.toList_append, String.toList_ofList, List.append_cancel_left_eq] at hchars
  exact stepChars_injective hchars

/-! ## Branches -/

namespace Frame

/-- The items of a sequence with their steps, counted from an index. -/
def itemBranches : Nat → List Frame → List (Step × Frame)
  | _, [] => []
  | index, item :: items => ({ index }, item) :: itemBranches (index + 1) items

/-- The keys and values of pairs with their steps, counted from an index. -/
def pairBranches : Nat → List (Frame × Frame) → List (Step × Frame)
  | _, [] => []
  | index, (key, value) :: pairs =>
      ({ index, member := .key }, key) :: ({ index, member := .value }, value) ::
        pairBranches (index + 1) pairs

/-- The direct children with the steps that lead to them. -/
def branches : Frame → List (Step × Frame)
  | .array (some items) => itemBranches 0 items
  | .set items => itemBranches 0 items
  | .push items => itemBranches 0 items
  | .map items => pairBranches 0 items
  | .attribute items => pairBranches 0 items
  | _ => []

/-- The steps that lead from a frame to its children. -/
def steps (f : Frame) : List Step :=
  f.branches.map Prod.fst

/-- The frame with other children in the place of its own. -/
def rebuild : Frame → List Frame → Frame
  | .array (some _), children => .array (some children)
  | .set _, children => .set children
  | .push _, children => .push children
  | .map _, children => .map (pairUp children)
  | .attribute _, children => .attribute (pairUp children)
  | f, _ => f

/-- Without the steps they are the items. -/
theorem itemBranches_snd (index : Nat) (items : List Frame) :
    (itemBranches index items).map Prod.snd = items := by
  induction items generalizing index with
  | nil => rfl
  | cons item items ih => simp [itemBranches, ih]

/-- Without the steps they are the keys and values. -/
theorem pairBranches_snd (index : Nat) (pairs : List (Frame × Frame)) :
    (pairBranches index pairs).map Prod.snd = pairs.flatMap fun pair => [pair.1, pair.2] := by
  induction pairs generalizing index with
  | nil => rfl
  | cons pair pairs ih => simp [pairBranches, ih]

/-- Without the steps they are the children. -/
theorem branches_snd (f : Frame) : f.branches.map Prod.snd = f.children := by
  cases f with
  | array items =>
      cases items with
      | none => rfl
      | some items => exact itemBranches_snd 0 items
  | set items => exact itemBranches_snd 0 items
  | push items => exact itemBranches_snd 0 items
  | map items => exact pairBranches_snd 0 items
  | «attribute» items => exact pairBranches_snd 0 items
  | _ => rfl

/-- A branch leads to a child. -/
theorem mem_children_of_mem_branches {f : Frame} {branch : Step × Frame}
    (h : branch ∈ f.branches) : branch.2 ∈ f.children := by
  rw [← branches_snd]
  exact List.mem_map_of_mem h

/-- There is a step for every child. -/
theorem length_steps (f : Frame) : f.steps.length = f.children.length := by
  rw [← branches_snd, steps, List.length_map, List.length_map]

/-- Items are counted up from the index. -/
theorem itemBranches_index {index : Nat} {items : List Frame} :
    ∀ branch ∈ itemBranches index items, index ≤ branch.1.index := by
  induction items generalizing index with
  | nil => simp [itemBranches]
  | cons item items ih =>
      refine List.forall_mem_cons.mpr ⟨le_rfl, ?_⟩
      intro branch hbranch
      exact (Nat.le_succ index).trans (ih branch hbranch)

/-- Pairs are counted up from the index. -/
theorem pairBranches_index {index : Nat} {pairs : List (Frame × Frame)} :
    ∀ branch ∈ pairBranches index pairs, index ≤ branch.1.index := by
  induction pairs generalizing index with
  | nil => simp [pairBranches]
  | cons pair pairs ih =>
      refine List.forall_mem_cons.mpr ⟨le_rfl, List.forall_mem_cons.mpr ⟨le_rfl, ?_⟩⟩
      intro branch hbranch
      exact (Nat.le_succ index).trans (ih branch hbranch)

/-- No two items have one step. -/
theorem itemBranches_nodup (index : Nat) (items : List Frame) :
    ((itemBranches index items).map Prod.fst).Nodup := by
  induction items generalizing index with
  | nil => exact List.nodup_nil
  | cons item items ih =>
      refine List.nodup_cons.mpr ⟨?_, ih (index + 1)⟩
      intro hmem
      obtain ⟨branch, hbranch, heq⟩ := List.mem_map.mp hmem
      have hle := itemBranches_index branch hbranch
      rw [heq] at hle
      exact absurd hle (by simp)

/-- No two members of pairs have one step. -/
theorem pairBranches_nodup (index : Nat) (pairs : List (Frame × Frame)) :
    ((pairBranches index pairs).map Prod.fst).Nodup := by
  induction pairs generalizing index with
  | nil => exact List.nodup_nil
  | cons pair pairs ih =>
      have hlater : ∀ member, ({ index, member } : Step) ∉
          (pairBranches (index + 1) pairs).map Prod.fst := by
        intro member hmem
        obtain ⟨branch, hbranch, heq⟩ := List.mem_map.mp hmem
        have hle := pairBranches_index branch hbranch
        rw [heq] at hle
        exact absurd hle (by simp)
      refine List.nodup_cons.mpr ⟨?_, List.nodup_cons.mpr ⟨hlater .value, ih (index + 1)⟩⟩
      intro hmem
      rcases List.mem_cons.mp hmem with heq | hmem
      · cases heq
      · exact hlater .key hmem

/-- No two children are reached by the same step. -/
theorem steps_nodup (f : Frame) : f.steps.Nodup := by
  cases f with
  | array items =>
      cases items with
      | none => exact List.nodup_nil
      | some items => exact itemBranches_nodup 0 items
  | set items => exact itemBranches_nodup 0 items
  | push items => exact itemBranches_nodup 0 items
  | map items => exact pairBranches_nodup 0 items
  | «attribute» items => exact pairBranches_nodup 0 items
  | _ => exact List.nodup_nil

/-- Other items at the same steps. -/
theorem itemBranches_zip (index : Nat) {items children : List Frame}
    (h : children.length = items.length) :
    itemBranches index children = ((itemBranches index items).map Prod.fst).zip children := by
  induction items generalizing index children with
  | nil =>
      obtain rfl := List.length_eq_zero_iff.mp h
      rfl
  | cons item items ih =>
      obtain ⟨child, children, rfl⟩ := List.exists_cons_of_length_eq_add_one h
      simp only [itemBranches, List.map_cons, List.zip_cons_cons, ← ih (index + 1) (by simpa using h)]

/-- Other keys and values at the same steps. -/
theorem pairBranches_zip (index : Nat) {pairs : List (Frame × Frame)} {children : List Frame}
    (h : children.length = (pairs.flatMap fun pair => [pair.1, pair.2]).length) :
    pairBranches index (pairUp children) =
      ((pairBranches index pairs).map Prod.fst).zip children := by
  induction pairs generalizing index children with
  | nil =>
      obtain rfl := List.length_eq_zero_iff.mp h
      rfl
  | cons pair pairs ih =>
      obtain ⟨key, children, rfl⟩ := List.exists_cons_of_length_eq_add_one h
      obtain ⟨value, children, rfl⟩ := List.exists_cons_of_length_eq_add_one (Nat.succ.inj h)
      have hrest := Nat.succ.inj (Nat.succ.inj h)
      simp only [pairUp, pairBranches, List.map_cons, List.zip_cons_cons, ih (index + 1) hrest]

/-- New children stand where the old ones stood. -/
theorem branches_rebuild {f : Frame} {children : List Frame}
    (h : children.length = f.children.length) :
    (f.rebuild children).branches = f.steps.zip children := by
  cases f with
  | array items =>
      cases items with
      | none => rfl
      | some items => exact itemBranches_zip 0 h
  | set items => exact itemBranches_zip 0 h
  | push items => exact itemBranches_zip 0 h
  | map items => exact pairBranches_zip 0 h
  | «attribute» items => exact pairBranches_zip 0 h
  | _ => rfl

/-- With its own children a frame is itself. -/
theorem rebuild_children (f : Frame) : f.rebuild f.children = f := by
  cases f with
  | array items => cases items <;> rfl
  | map items => exact congrArg Frame.map (pairUp_flatMap items)
  | «attribute» items => exact congrArg Frame.attribute (pairUp_flatMap items)
  | _ => rfl

/-- A frame has the children that it was built with. -/
theorem children_rebuild {f : Frame} {children : List Frame}
    (h : children.length = f.children.length) : (f.rebuild children).children = children := by
  rw [← branches_snd, branches_rebuild h, List.map_snd_zip]
  rw [length_steps, h]

/-- Walks that were prepared for the children, with their steps. -/
theorem zip_steps {β : Type} (g : Frame → β) (f : Frame) :
    f.steps.zip (f.children.map g) = f.branches.map fun branch => (branch.1, g branch.2) := by
  rw [← branches_snd, steps, List.map_map, List.zip_map']
  rfl

/-! ## Shells -/

/-- The same constructor, the same number of children and the same contents of
scalars. -/
inductive SameShell : Frame → Frame → Prop where
  | leaf {f : Frame} : f.children = [] → SameShell f f
  | array {xs ys : List Frame} : xs.length = ys.length →
      SameShell (.array (some xs)) (.array (some ys))
  | set {xs ys : List Frame} : xs.length = ys.length → SameShell (.set xs) (.set ys)
  | push {xs ys : List Frame} : xs.length = ys.length → SameShell (.push xs) (.push ys)
  | map {xs ys : List (Frame × Frame)} : xs.length = ys.length → SameShell (.map xs) (.map ys)
  | «attribute» {xs ys : List (Frame × Frame)} : xs.length = ys.length →
      SameShell (.attribute xs) (.attribute ys)

/-- As many keys and values make as many pairs. -/
theorem length_pairUp {pairs : List (Frame × Frame)} {children : List Frame}
    (h : children.length = (pairs.flatMap fun pair => [pair.1, pair.2]).length) :
    (pairUp children).length = pairs.length := by
  have hzip := congrArg List.length (pairBranches_zip 0 h)
  have hlength : ∀ (index : Nat) (pairs : List (Frame × Frame)),
      (pairBranches index pairs).length = 2 * pairs.length := by
    intro index pairs
    induction pairs generalizing index with
    | nil => rfl
    | cons pair pairs ih =>
        simp only [pairBranches, List.length_cons, ih]
        omega
  have hsum : (pairs.flatMap fun pair => [pair.1, pair.2]).length = 2 * pairs.length := by
    rw [← pairBranches_snd 0, List.length_map, hlength]
  rw [List.length_zip, List.length_map, hlength, hlength] at hzip
  omega

/-- Other children leave the shell alone. -/
theorem sameShell_rebuild {f : Frame} {children : List Frame}
    (h : children.length = f.children.length) : SameShell f (f.rebuild children) := by
  cases f with
  | array items =>
      cases items with
      | none => exact .leaf rfl
      | some items => exact .array h.symm
  | set items => exact .set h.symm
  | push items => exact .push h.symm
  | map items => exact .map (length_pairUp h).symm
  | «attribute» items => exact .attribute (length_pairUp h).symm
  | _ => exact .leaf rfl

/-- A frame has its own shell. -/
theorem SameShell.refl (f : Frame) : SameShell f f := by
  have h : SameShell f (f.rebuild f.children) := sameShell_rebuild rfl
  rwa [rebuild_children] at h

/-- Frames that differ in their children only have the same head. -/
theorem SameShell.head_eq {f g : Frame} (h : SameShell f g) (replacement : Option String) :
    g.head replacement = f.head replacement := by
  cases h with
  | leaf _ => rfl
  | array h => simp only [head, h]
  | set h => simp only [head, h]
  | push h => simp only [head, h]
  | map h => simp only [head, h]
  | «attribute» h => simp only [head, h]

/-- The shell decides which length is declared. -/
theorem SameShell.declaredLength_eq {f g : Frame} (h : SameShell f g) :
    g.declaredLength = f.declaredLength := by
  cases h with
  | leaf _ => rfl
  | array h => simp only [declaredLength, h]
  | set h => simp only [declaredLength, h]
  | push h => simp only [declaredLength, h]
  | map h => simp only [declaredLength, h]
  | «attribute» h => simp only [declaredLength, h]

/-! ## Visits -/

/-- The frame at a position. -/
def at? (p : List Step) (f : Frame) : Option Frame :=
  Tree.at? branches p f

/-- A test that every frame of the tree passes is passed at every position. -/
theorem all_at? {test : Frame → Bool} {f g : Frame} {p : List Step} (h : f.all test = true)
    (hp : f.at? p = some g) : test g = true := by
  induction p generalizing f with
  | nil =>
      cases hp
      exact (all_eq_true_iff.mp h).1
  | cons step p ih =>
      rcases Option.bind_eq_some_iff.mp hp with ⟨c, hc, hg⟩
      have hbranch := (Tree.mem_iff_lookup f.steps_nodup).mpr hc
      exact ih ((all_eq_true_iff.mp h).2 c (mem_children_of_mem_branches hbranch)) hg

/-- No frame of the tree declares a length above a bound. -/
def LengthsLe (N : Nat) (f : Frame) : Prop :=
  f.all (fun g => g.declaredLength.all fun n => decide (n ≤ (N : Int))) = true

instance (N : Nat) : DecidablePred (LengthsLe N) := fun f => by
  unfold LengthsLe
  infer_instance

/-- A bound on the declared lengths holds of the frame and of its children. -/
theorem lengthsLe_iff {N : Nat} {f : Frame} :
    f.LengthsLe N ↔ (∀ n, f.declaredLength = some n → n ≤ N) ∧ ∀ c ∈ f.children, c.LengthsLe N := by
  rw [LengthsLe, all_eq_true_iff]
  apply and_congr_left
  intro _
  cases f.declaredLength <;> simp

/-- A larger bound is a bound. -/
theorem LengthsLe.mono {M N : Nat} {f : Frame} (h : f.LengthsLe M) (hle : M ≤ N) :
    f.LengthsLe N := by
  induction f using childInduction with
  | step f ih =>
      rcases lengthsLe_iff.mp h with ⟨hlength, hchildren⟩
      refine lengthsLe_iff.mpr ⟨fun n hn => ?_, fun c hc => ih c hc (hchildren c hc)⟩
      exact (hlength n hn).trans (by exact_mod_cast hle)

/-- The bound holds wherever a path leads. -/
theorem LengthsLe.at? {N : Nat} {f g : Frame} {p : List Step} (h : f.LengthsLe N)
    (hp : f.at? p = some g) {n : Int} (hn : g.declaredLength = some n) : n ≤ N := by
  have hg := all_at? h hp
  rw [hn] at hg
  simpa using hg

/-- A frame of a tree with its path and its nesting level. -/
structure Visited where
  frame : Frame
  path : String
  level : Nat

/-- The frames of a tree in wire order. -/
def visit : Frame → String → Nat → List Visited :=
  fold fun f walks path level =>
    { frame := f, path, level } ::
      (f.steps.zip walks).flatMap fun (step, walk) => walk (path ++ step.text) (level + 1)

/-- A visit begins at the frame, and goes on with its branches. -/
theorem visit_eq (f : Frame) (path : String) (level : Nat) :
    f.visit path level = { frame := f, path, level } ::
      f.branches.flatMap fun branch => branch.2.visit (path ++ branch.1.text) (level + 1) := by
  rw [visit, fold_eq, zip_steps, List.flatMap_map]

/-- Each step leads to one child, so branches can be looked up. -/
theorem mem_branches_iff {f c : Frame} {step : Step} :
    (step, c) ∈ f.branches ↔ f.branches.lookup step = some c :=
  Tree.mem_iff_lookup f.steps_nodup

/-- The visited frames are the frames at the positions of the tree. -/
theorem mem_visit {f : Frame} {p : List Step} {level : Nat} {v : Visited} :
    v ∈ f.visit (pathText p) level ↔ ∃ q, f.at? q = some v.frame ∧
      v.path = pathText (p ++ q) ∧ v.level = level + q.length := by
  induction f using childInduction generalizing p level with
  | step f ih =>
      rw [visit_eq, List.mem_cons, List.mem_flatMap]
      constructor
      · rintro (rfl | ⟨⟨step, c⟩, hbranch, hv⟩)
        · exact ⟨[], rfl, by simp, rfl⟩
        · rw [← pathText_snoc, ih c (mem_children_of_mem_branches hbranch)] at hv
          obtain ⟨q, hq, hpath, hlevel⟩ := hv
          refine ⟨step :: q, ?_, by simpa using hpath, ?_⟩
          · rw [at?, Tree.at?, mem_branches_iff.mp hbranch]
            exact hq
          · rw [hlevel, List.length_cons]
            omega
      · rintro ⟨q, hq, hpath, hlevel⟩
        cases q with
        | nil =>
            obtain ⟨frame, path, level'⟩ := v
            obtain rfl := Option.some.inj hq
            simp_all
        | cons step q =>
            rw [at?, Tree.at?, Option.bind_eq_some_iff] at hq
            obtain ⟨c, hlookup, hq⟩ := hq
            have hbranch := mem_branches_iff.mpr hlookup
            refine .inr ⟨(step, c), hbranch, ?_⟩
            rw [← pathText_snoc, ih c (mem_children_of_mem_branches hbranch)]
            exact ⟨q, hq, by simpa using hpath, by rw [hlevel, List.length_cons]; omega⟩

end Frame

end Resp
end EvilResp
