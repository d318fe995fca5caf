import Lox.Proofs.Grammar.Building
import Lox.Proofs.Scope.Depths

/-! The identity of nodes over all the parses of a process. Every tree that is returned has nodes
of its own, so the depths that are recorded for one program are never those of another. -/

namespace Lox

open Numbered Stock

namespace Numbered

mutual

lemma bare_plain (f : Nat → Option Nat) : (t : Numbered) → (t.plain f).bare = t.bare
  | .node _ label line children =>
    congrArg (Tree.node label line none) (bareLeaves_plainBelow f children)

lemma bareLeaf_plainLeaf (f : Nat → Option Nat) :
    (l : NumberedLeaf) → Tree.bareLeaf (plainLeaf f l) = plainLeaf (fun _ => none) l
  | .tree t => congrArg Leaf.tree (bare_plain f t)
  | .token _ | .value _ | .absent => rfl

lemma bareLeaves_plainBelow (f : Nat → Option Nat) :
    (ls : List NumberedLeaf) → Tree.bareLeaves (plainBelow f ls) = bareBelow ls
  | [] => rfl
  | l :: ls => congrArg₂ List.cons (bareLeaf_plainLeaf f l) (bareLeaves_plainBelow f ls)

end

mutual

lemma depths_plain (f : Nat → Option Nat) : (t : Numbered) → (t.plain f).depths = t.numbers.map f
  | .node number _ _ children => congrArg (f number :: ·) (depthsBelow_plainBelow f children)

lemma depthsOfLeaf_plainLeaf (f : Nat → Option Nat) : (l : NumberedLeaf) →
    Tree.depthsOfLeaf (plainLeaf f l) = ((subtreesOfLeaf l).map number).map f
  | .tree t => depths_plain f t
  | .token _ | .value _ | .absent => rfl

lemma depthsBelow_plainBelow (f : Nat → Option Nat) :
    (ls : List NumberedLeaf) → Tree.depthsBelow (plainBelow f ls) = (numbersBelow ls).map f
  | [] => rfl
  | l :: ls => by
    rw [numbersBelow_cons, List.map_append, ← depthsOfLeaf_plainLeaf f l,
      ← depthsBelow_plainBelow f ls]
    rfl

end

lemma plain_congr {f g : Nat → Option Nat} {t : Numbered} (h : ∀ n ∈ t.numbers, f n = g n) :
    t.plain f = t.plain g := by
  refine Tree.eq_of_bare _ _ ((bare_plain f t).trans (bare_plain g t).symm) ?_
  rw [depths_plain, depths_plain]
  exact List.map_congr_left h

lemma plainBelow_trees (f : Nat → Option Nat) (ts : List Numbered) :
    plainBelow f (ts.map .tree) = (ts.map (plain f)).map .tree := by
  induction ts with
  | nil => rfl
  | cons t ts ih => exact congrArg (Leaf.tree (t.plain f) :: ·) ih

lemma flatMap_depths (f : Nat → Option Nat) (ts : List Numbered) :
    (ts.map (plain f)).flatMap Tree.depths = (ts.flatMap numbers).map f := by
  rw [← Tree.depthsBelow_trees, ← plainBelow_trees, depthsBelow_plainBelow, numbersBelow_trees]

lemma map_bare_plain (f : Nat → Option Nat) (ts : List Numbered) :
    (ts.map (plain f)).map Tree.bare = ts.map bare := by
  rw [List.map_map]
  exact List.map_congr_left fun t _ => bare_plain f t

lemma length_depths {ts : List Numbered} {us : List Tree} (h : ts.map bare = us.map Tree.bare) :
    (ts.flatMap numbers).length = (us.flatMap Tree.depths).length := by
  have hlength (us : List Tree) :
      ((us.map Tree.bare).flatMap Tree.depths).length = (us.flatMap Tree.depths).length := by
    rw [← Tree.depthsBelow_trees, ← Tree.bareLeaves_trees, Tree.length_depthsBelow_bare,
      Tree.depthsBelow_trees]
  have hbare : ts.map bare = ts.map (plain fun _ => none) := rfl
  rw [← hlength us, ← h, hbare, flatMap_depths, List.length_map]

theorem map_plain_eq {f : Nat → Option Nat} {ts : List Numbered} {us : List Tree}
    (hbare : ts.map bare = us.map Tree.bare)
    (hdepths : (ts.flatMap numbers).map f = us.flatMap Tree.depths) : ts.map (plain f) = us := by
  refine List.map_injective_iff.mpr (fun _ _ => Leaf.tree.inj) (Tree.leaves_eq_of_bare _ _ ?_ ?_)
  · rw [Tree.bareLeaves_trees, Tree.bareLeaves_trees, map_bare_plain, hbare]
  · rw [Tree.depthsBelow_trees, Tree.depthsBelow_trees, flatMap_depths, hdepths]

mutual

lemma subtrees_subset {u : Numbered} : (t : Numbered) → u ∈ t.subtrees → u.subtrees ⊆ t.subtrees
  | .node number label line children, hu => by
    rw [subtrees, List.mem_cons] at hu
    cases hu with
    | inl hu => exact hu ▸ List.Subset.refl _
    | inr hu => exact List.subset_cons_of_subset _ (subtreesBelow_subset children hu)

lemma subtreesOfLeaf_subset {u : Numbered} :
    (l : NumberedLeaf) → u ∈ subtreesOfLeaf l → u.subtrees ⊆ subtreesOfLeaf l
  | .tree t, hu => subtrees_subset t hu
  | .token _, hu | .value _, hu | .absent, hu => by cases hu

lemma subtreesBelow_subset {u : Numbered} :
    (ls : List NumberedLeaf) → u ∈ subtreesBelow ls → u.subtrees ⊆ subtreesBelow ls
  | l :: ls, hu => by
    rw [subtreesBelow, List.mem_append] at hu
    cases hu with
    | inl hu => exact List.subset_append_of_subset_left _ (subtreesOfLeaf_subset l hu)
    | inr hu => exact List.subset_append_of_subset_right _ (subtreesBelow_subset ls hu)

end

end Numbered

inductive EntryPoint where
  | program
  -- An expression at the start of the tokens.
  | expression
  -- An expression that all tokens make up.
  | bareExpression

inductive Parsed where
  | program (body : List Stmt)
  | expression (e : Option Expr)

namespace Parsed

def resolve : Parsed → Parsed
  | .program body => .program (Resolver.program body).1
  | .expression e => .expression (e.map fun e => (Resolver.expression e).1)

def trees : Parsed → List Tree
  | .program body => body.map Stmt.tree
  | .expression e => (e.map Expr.tree).toList

lemma bare_resolve (x : Parsed) : x.resolve.trees.map Tree.bare = x.trees.map Tree.bare := by
  cases x with
  | program body => exact Resolver.bare_program body
  | expression e =>
    cases e with
    | none => rfl
    | some e => exact congrArg (fun t => [t]) (Resolver.bare_expression e)

end Parsed

/-- A parse by a process, and whether what it returns is resolved for the interpreter. -/
structure Parse where
  entry : EntryPoint
  scan : Scan
  isResolved : Bool

namespace Parse

def parsed (r : Parse) : Parsed :=
  match r.entry with
  | .program => .program (Grammar.program r.scan).1
  | .expression => .expression (Grammar.expression r.scan).outcome.toOption
  | .bareExpression => .expression (Grammar.bareExpression? r.scan)

def known (r : Parse) : Parsed := if r.isResolved then r.parsed.resolve else r.parsed

def builders (s : Scan) : Builders := Builders.nested (s.tokens.length + 1)

def builder (r : Parse) : Builder (List Numbered) :=
  match r.entry with
  | .program => Builder.collect Cursor.atEnd ((builders r.scan).declaration false)
  | .expression => return [← (builders r.scan).expression]
  | .bareExpression =>
    let whole := do
      let t ← (builders r.scan).expression
      let c := (← get).cursor
      return if r.scan.diagnostics.isEmpty && c.reports.isEmpty && c.atEnd then [t] else []
    Builder.orElse whole (return [])

def build (r : Parse) (first : Nat) : List Numbered × Nat :=
  match r.builder ⟨Grammar.start r.scan, first⟩ with
  | .ok ts d => (ts, d.next)
  | .error _ d => ([], d.next)

theorem marks_of_le {ts : List Numbered} {us : List Tree} {S : Stock} {first next : Nat}
    (h : Marks (ts.map .tree) (us.map .tree) S) (hS : ∀ i, S i ≤ zero i + between first next i) :
    Marks (ts.map .tree) (us.map .tree) (between first next) :=
  h.mono fun i => Nat.le_trans (hS i) (Nat.le_of_eq (Nat.zero_add _))

/-- The nodes of the returned trees have taken their numbers from the counter, each its own. -/
def Marked (r : Parse) (first : Nat) : Prop :=
  first ≤ (r.build first).2 ∧ Marks ((r.build first).1.map .tree) (r.parsed.trees.map .tree)
    (between first (r.build first).2)

lemma marks_nothing {first next : Nat} : Marks [] [] (between first next) :=
  Marks.nil.mono fun _ => Nat.zero_le _

lemma marked_program (s : Scan) (isResolved : Bool) (first : Nat) :
    Marked ⟨.program, s, isResolved⟩ first := by
  have hends := Builders.builds_declarations (Builders.goAlong_nested (s.tokens.length + 1))
    Cursor.atEnd false (Grammar.start s) first
  unfold Marked build
  simp only [builder, builders, parsed, Grammar.program, Grammar.readProgram, Grammar.readers]
  generalize Builder.collect _ _ _ = a at hends ⊢
  generalize Reader.collect _ _ _ = b at hends ⊢
  cases hends with
  | ok hn hS hQ => exact ⟨hn, marks_of_le hQ hS⟩
  | error hn => exact ⟨hn, marks_nothing⟩

lemma marked_expression (s : Scan) (isResolved : Bool) (first : Nat) :
    Marked ⟨.expression, s, isResolved⟩ first := by
  have hends := (Builders.goAlong_nested (s.tokens.length + 1)).expression (Grammar.start s) first
  unfold Marked build
  simp only [builder, builders, parsed, Grammar.expression, Grammar.read, Grammar.readers, bind,
    EStateM.bind]
  generalize (Builders.nested _).expression _ = a at hends ⊢
  generalize (Readers.nested _).expression _ = b at hends ⊢
  cases hends with
  | ok hn hS hQ => exact ⟨hn, marks_of_le hQ hS⟩
  | error hn => exact ⟨hn, marks_nothing⟩

lemma builder_bareExpression (s : Scan) (isResolved : Bool) (d : Desk) :
    builder ⟨.bareExpression, s, isResolved⟩ d =
      match (builders s).expression d with
      | .ok t d =>
        let isWhole := s.diagnostics.isEmpty && d.cursor.reports.isEmpty && d.cursor.atEnd
        .ok (if isWhole then [t] else []) d
      | .error _ d => .ok [] d := by
  unfold builder
  simp only [Builder.orElse, bind, EStateM.bind]
  cases (builders s).expression d <;> rfl

lemma marked_bareExpression (s : Scan) (isResolved : Bool) (first : Nat) :
    Marked ⟨.bareExpression, s, isResolved⟩ first := by
  have hends := (Builders.goAlong_nested (s.tokens.length + 1)).expression (Grammar.start s) first
  have hread : Grammar.expression s =
      Grammar.read (Readers.nested (s.tokens.length + 1)).expression (Grammar.start s) := rfl
  unfold Marked build
  simp only [builder_bareExpression, builders, parsed, Grammar.bareExpression?, hread, Grammar.read]
  generalize (Builders.nested _).expression _ = a at hends ⊢
  generalize (Readers.nested _).expression _ = b at hends ⊢
  cases hends with
  | ok hn hS hQ =>
    dsimp only
    -- A tree that is not all of the tokens, or that errors came with, is dropped.
    split
    · exact ⟨hn, marks_of_le hQ hS⟩
    · exact ⟨hn, marks_nothing⟩
  | error hn => exact ⟨hn, marks_nothing⟩

lemma marked (r : Parse) (first : Nat) : r.Marked first :=
  match r with
  | ⟨.program, s, isResolved⟩ => marked_program s isResolved first
  | ⟨.expression, s, isResolved⟩ => marked_expression s isResolved first
  | ⟨.bareExpression, s, isResolved⟩ => marked_bareExpression s isResolved first

lemma bare_build (r : Parse) (first : Nat) :
    (r.build first).1.map bare = r.parsed.trees := by
  have h := (r.marked first).2.bare
  rw [bareBelow, plainBelow_trees] at h
  exact List.map_injective_iff.mpr (fun _ _ => Leaf.tree.inj) h

lemma bare_known (r : Parse) (first : Nat) :
    (r.build first).1.map bare = r.known.trees.map Tree.bare := by
  have hparsed : r.known.trees.map Tree.bare = r.parsed.trees.map Tree.bare := by
    unfold known
    split
    · exact r.parsed.bare_resolve
    · rfl
  rw [hparsed, ← r.bare_build first]
  exact (map_bare_plain _ _).symm

end Parse

def entries (ns : List Nat) (depths : List (Option Nat)) : List (Nat × Nat) :=
  (ns.zip depths).filterMap fun node => node.2.map fun depth => (node.1, depth)

lemma keys_entries_sublist (ns : List Nat) (depths : List (Option Nat)) :
    ((entries ns depths).map Prod.fst).Sublist ns := by
  induction ns generalizing depths with
  | nil => exact List.Sublist.refl _
  | cons n ns ih =>
    obtain _ | ⟨_ | depth, depths⟩ := depths
    · exact List.nil_sublist _
    · exact (ih depths).cons n
    · exact (ih depths).cons_cons n

lemma lookup_eq_none {n : Nat} {table : List (Nat × Nat)} (h : n ∉ table.map Prod.fst) :
    table.lookup n = none := by
  refine List.lookup_eq_none_iff.mpr fun entry hentry => ?_
  refine bne_iff_ne.mpr fun hn => h ?_
  exact hn ▸ List.mem_map_of_mem hentry

lemma lookup_entries {ns : List Nat} {depths : List (Option Nat)} (h : ns.Nodup)
    (hlength : ns.length = depths.length) :
    ns.map (fun n => (entries ns depths).lookup n) = depths := by
  induction ns generalizing depths with
  | nil => exact (List.eq_nil_of_length_eq_zero hlength.symm).symm
  | cons n ns ih =>
    obtain ⟨hn, hns⟩ := List.nodup_cons.mp h
    obtain _ | ⟨depth, depths⟩ := depths
    · cases hlength
    have hrest := ih hns (Nat.succ.inj hlength)
    cases depth with
    | none =>
      have hnone : (entries ns depths).lookup n = none :=
        lookup_eq_none fun hmem => hn ((keys_entries_sublist ns depths).subset hmem)
      exact congrArg₂ List.cons hnone hrest
    | some depth =>
      have hentries : entries (n :: ns) (some depth :: depths) =
          (n, depth) :: entries ns depths := rfl
      rw [hentries, List.map_cons, List.lookup_cons_self, List.cons.injEq]
      refine ⟨rfl, Eq.trans (List.map_congr_left fun m hm => ?_) hrest⟩
      have hne : (m == n) = false := beq_false_of_ne fun hmn => hn (hmn ▸ hm)
      rw [List.lookup_cons, hne]

/-- What a process keeps: the counter of nodes, all trees that have been returned, and the table of
depths of its interpreter. -/
structure Process where
  next : Nat
  returned : List Numbered
  -- Later entries come first, where they hide earlier ones for the same node.
  locals : List (Nat × Nat)

namespace Process

def start : Process := ⟨1, [], []⟩

def depth (p : Process) (n : Nat) : Option Nat := p.locals.lookup n

def table (p : Process) (r : Parse) : List (Nat × Nat) :=
  if r.isResolved then
    entries ((r.build p.next).1.flatMap numbers) (r.parsed.resolve.trees.flatMap Tree.depths)
  else []

def parse (p : Process) (r : Parse) : Process where
  next := (r.build p.next).2
  returned := p.returned ++ (r.build p.next).1
  locals := p.table r ++ p.locals

def runFrom (p : Process) (rs : List Parse) : Process := rs.foldl parse p

def run (rs : List Parse) : Process := start.runFrom rs

/-- No number has been used twice, and none of them will be used again. -/
structure Distinct (p : Process) : Prop where
  below : ∀ n ∈ p.returned.flatMap numbers, n < p.next
  nodup : (p.returned.flatMap numbers).Nodup
  recorded : ∀ n ∈ p.locals.map Prod.fst, n ∈ p.returned.flatMap numbers
  once : (p.locals.map Prod.fst).Nodup

lemma distinct_start : start.Distinct where
  below _ hn := by cases hn
  nodup := .nil
  recorded _ hn := by cases hn
  once := .nil

variable {p : Process} (r : Parse)

lemma mem_build {n : Nat} (h : n ∈ (r.build p.next).1.flatMap numbers) :
    p.next ≤ n ∧ n < (r.build p.next).2 :=
  (r.marked p.next).2.mem_between (numbersBelow_trees _ ▸ h)

lemma nodup_build : ((r.build p.next).1.flatMap numbers).Nodup :=
  numbersBelow_trees (r.build p.next).1 ▸ (r.marked p.next).2.nodup

lemma keys_table_sublist (p : Process) :
    ((p.table r).map Prod.fst).Sublist ((r.build p.next).1.flatMap numbers) := by
  unfold table
  split
  · exact keys_entries_sublist _ _
  · exact List.nil_sublist _

lemma Distinct.disjoint (h : p.Distinct) {n : Nat} (hn : n ∈ p.returned.flatMap numbers) :
    n ∉ (r.build p.next).1.flatMap numbers :=
  fun hn' => Nat.not_le_of_lt (h.below n hn) (mem_build r hn').1

lemma Distinct.parse (h : p.Distinct) : (p.parse r).Distinct where
  below n hn := by
    rw [Process.parse, List.flatMap_append, List.mem_append] at hn
    cases hn with
    | inl hn => exact Nat.lt_of_lt_of_le (h.below n hn) (r.marked p.next).1
    | inr hn => exact (mem_build r hn).2
  nodup := by
    rw [Process.parse, List.flatMap_append]
    exact List.Nodup.append h.nodup (nodup_build r) fun n hn => h.disjoint r hn
  recorded n hn := by
    rw [Process.parse, List.map_append, List.mem_append] at hn
    rw [Process.parse, List.flatMap_append, List.mem_append]
    exact hn.symm.imp (h.recorded n) fun hn => (keys_table_sublist r p).subset hn
  once := by
    rw [Process.parse, List.map_append]
    have hkeys := (nodup_build r).sublist (keys_table_sublist r p)
    refine List.Nodup.append hkeys h.once fun n hn hn' => ?_
    exact h.disjoint r (h.recorded n hn') ((keys_table_sublist r p).subset hn)

theorem Distinct.depth_parse (h : p.Distinct) {n : Nat} (hn : n ∈ p.returned.flatMap numbers) :
    (p.parse r).depth n = p.depth n := by
  have hnone : (p.table r).lookup n = none :=
    lookup_eq_none fun hmem => h.disjoint r hn ((keys_table_sublist r p).subset hmem)
  rw [depth, Process.parse, List.lookup_append, hnone]
  rfl

theorem Distinct.depths_parse (h : p.Distinct) :
    ((r.build p.next).1.flatMap numbers).map (p.parse r).depth =
      r.known.trees.flatMap Tree.depths := by
  have hnew : ∀ n ∈ (r.build p.next).1.flatMap numbers,
      (p.parse r).depth n = (p.table r).lookup n := by
    intro n hn
    have hnone : p.locals.lookup n = none :=
      lookup_eq_none fun hmem => h.disjoint r (h.recorded n hmem) hn
    rw [depth, Process.parse, List.lookup_append, hnone, Option.or_none]
  rw [List.map_congr_left hnew]
  unfold table Parse.known
  split
  · next hr =>
    have hbare := r.bare_known p.next
    rw [Parse.known, if_pos hr] at hbare
    exact lookup_entries (nodup_build r) (length_depths hbare)
  · rw [← r.bare_build p.next]
    exact (flatMap_depths _ _).symm

lemma Distinct.plain_parse (h : p.Distinct) :
    (r.build p.next).1.map (Numbered.plain (p.parse r).depth) = r.known.trees :=
  map_plain_eq (r.bare_known p.next) (h.depths_parse r)

lemma Distinct.runFrom (h : p.Distinct) (rs : List Parse) : (p.runFrom rs).Distinct := by
  induction rs generalizing p with
  | nil => exact h
  | cons r rs ih => exact ih (h.parse r)

lemma returned_runFrom (p : Process) (rs : List Parse) :
    (p.runFrom rs).returned.map Numbered.bare =
      p.returned.map Numbered.bare ++ rs.flatMap fun r => r.parsed.trees := by
  induction rs generalizing p with
  | nil => exact (List.append_nil _).symm
  | cons r rs ih =>
    have hparse : (p.parse r).returned.map Numbered.bare =
        p.returned.map Numbered.bare ++ r.parsed.trees := by
      rw [Process.parse, List.map_append, r.bare_build]
    rw [List.flatMap_cons, ← List.append_assoc, ← hparse]
    exact ih (p.parse r)

lemma Distinct.depth_runFrom (h : p.Distinct) {n : Nat} (hn : n ∈ p.returned.flatMap numbers)
    (rs : List Parse) : (p.runFrom rs).depth n = p.depth n := by
  induction rs generalizing p with
  | nil => rfl
  | cons r rs ih =>
    have hparse : n ∈ (p.parse r).returned.flatMap numbers := by
      rw [Process.parse, List.flatMap_append]
      exact List.mem_append_left _ hn
    exact (ih (h.parse r) hparse).trans (h.depth_parse r hn)

theorem Distinct.plain_runFrom (h : p.Distinct) (rs : List Parse) :
    (r.build p.next).1.map (Numbered.plain ((p.parse r).runFrom rs).depth) = r.known.trees := by
  have hkept : ∀ t ∈ (r.build p.next).1,
      t.plain ((p.parse r).runFrom rs).depth = t.plain (p.parse r).depth := by
    intro t ht
    refine plain_congr fun n hn => (h.parse r).depth_runFrom ?_ rs
    rw [Process.parse, List.flatMap_append]
    exact List.mem_append_right _ (List.mem_flatMap.mpr ⟨t, ht, hn⟩)
  rw [List.map_congr_left hkept]
  exact h.plain_parse r

end Process

open Process in
/-- Whatever a process parses, and whichever of it is resolved, no two nodes of the trees that are
returned have the same number, and no tree is returned twice or as a part of two trees. No number
is recorded twice. Later parses change nothing at the nodes of earlier trees, nor at those of any
part of them that a closure has kept, and what the interpreter finds at the nodes of a tree is what
was resolved for it. -/
theorem Process.nodes_distinct (rs : List Parse) :
    let p := run rs
    p.returned.map Numbered.bare = rs.flatMap (fun r => r.parsed.trees) ∧
    (p.returned.flatMap numbers).Nodup ∧
    (p.returned.flatMap subtrees).Nodup ∧
    (p.locals.map Prod.fst).Nodup ∧
    (∀ before after, rs = before ++ after → ∀ t ∈ (run before).returned, ∀ u ∈ t.subtrees,
      u.plain p.depth = u.plain (run before).depth) ∧
    ∀ before r after, rs = before ++ r :: after →
      (r.build (run before).next).1.map (Numbered.plain p.depth) = r.known.trees := by
  intro p
  have hp : p.Distinct := distinct_start.runFrom rs
  have hsplit (before after : List Parse) : run (before ++ after) = (run before).runFrom after :=
    List.foldl_append
  have hkept (before after : List Parse) (n : Nat) (h : rs = before ++ after)
      (hn : n ∈ (run before).returned.flatMap numbers) : p.depth n = (run before).depth n := by
    have hdistinct : (run before).Distinct := distinct_start.runFrom before
    rw [← hdistinct.depth_runFrom hn after, ← hsplit, ← h]
  refine ⟨returned_runFrom start rs, hp.nodup, ?_, hp.once, ?_, ?_⟩
  · refine List.Nodup.of_map number ?_
    rw [List.map_flatMap]
    exact hp.nodup
  · intro before after h t ht u hu
    refine plain_congr fun n hn => hkept before after n h ?_
    exact List.mem_flatMap.mpr ⟨t, ht, List.map_subset number (subtrees_subset t hu) hn⟩
  · intro before r after h
    have hdistinct : (run before).Distinct := distinct_start.runFrom before
    have hr : p = ((run before).parse r).runFrom after := by
      rw [show p = run rs from rfl, h, hsplit]
      rfl
    rw [hr]
    exact hdistinct.plain_runFrom r after

example :
    let p := Process.run [⟨.bareExpression, .ofString "a;", false⟩,
      ⟨.program, .ofString "a;", true⟩, ⟨.program, .ofString "{ var a; print a; }", true⟩]
    p.returned.flatMap numbers = [3, 2, 7, 4, 6, 5] ∧ p.locals = [(5, 0)] := by
  decide +kernel

end Lox
