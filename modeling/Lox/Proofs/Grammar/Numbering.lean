import Mathlib.Data.List.Nodup
import Lox.Proofs.Grammar.Numbered
import Lox.Proofs.Grammar.Reading
import Lox.Proofs.Syntax.Shape

/-! Builders build the trees of what readers read, and no number that they take is used twice. The
numbers are accounted for by stocks: a stock says how often each number may be used, and what is
put together from parts uses up the sum of their stocks. -/

namespace Lox

namespace Numbered

@[simp] lemma bareBelow_nil : bareBelow [] = [] := rfl

@[simp] lemma bareBelow_cons (l : NumberedLeaf) (ls : List NumberedLeaf) :
    bareBelow (l :: ls) = plainLeaf (fun _ => none) l :: bareBelow ls := rfl

lemma bareBelow_append (ls ls' : List NumberedLeaf) :
    bareBelow (ls ++ ls') = bareBelow ls ++ bareBelow ls' := by
  induction ls with
  | nil => rfl
  | cons l ls ih => simp [ih]

@[simp] lemma numbersBelow_nil : numbersBelow [] = [] := rfl

lemma numbersBelow_cons (l : NumberedLeaf) (ls : List NumberedLeaf) :
    numbersBelow (l :: ls) = (subtreesOfLeaf l).map number ++ numbersBelow ls :=
  List.map_append

lemma numbersBelow_append (ls ls' : List NumberedLeaf) :
    numbersBelow (ls ++ ls') = numbersBelow ls ++ numbersBelow ls' := by
  induction ls with
  | nil => rfl
  | cons l ls ih => simp [numbersBelow_cons, ih]

lemma numbersBelow_trees (ts : List Numbered) :
    numbersBelow (ts.map .tree) = ts.flatMap numbers := by
  induction ts with
  | nil => rfl
  | cons t ts ih =>
    rw [List.map_cons, numbersBelow_cons, ih]
    rfl

end Numbered

open Numbered

abbrev Stock := Nat → Nat

namespace Stock

def zero : Stock := fun _ => 0

def one (n : Nat) : Stock := fun i => if n = i then 1 else 0

def between (a b : Nat) : Stock := fun i => if a ≤ i ∧ i < b then 1 else 0

lemma between_succ (a i : Nat) : between a (a + 1) i = one a i := by
  unfold between one
  split <;> split <;> omega

lemma between_add {a b c : Nat} (h : a ≤ b) (h' : b ≤ c) (i : Nat) :
    between a b i + between b c i = between a c i := by
  unfold between
  split <;> split <;> split <;> omega

end Stock

open Stock

/-- Numbered leaves without their numbers, and a stock that provides all the numbers. -/
structure Marks (ls : List NumberedLeaf) (ps : List Leaf) (S : Stock) : Prop where
  bare : bareBelow ls = ps
  stock : ∀ i, (numbersBelow ls).count i ≤ S i

namespace Marks

variable {l : NumberedLeaf} {ls ls' : List NumberedLeaf} {p : Leaf} {ps ps' : List Leaf}
  {S T : Stock} {n : Nat} {label : String} {line : Nat}

lemma mono (h : Marks ls ps S) (hS : ∀ i, S i ≤ T i) : Marks ls ps T :=
  ⟨h.bare, fun i => Nat.le_trans (h.stock i) (hS i)⟩

lemma nil : Marks [] [] zero := ⟨rfl, fun _ => Nat.le_refl 0⟩

lemma absent : Marks [.absent] [.absent] zero := ⟨rfl, fun _ => Nat.le_refl 0⟩

lemma append (h : Marks ls ps S) (h' : Marks ls' ps' T) :
    Marks (ls ++ ls') (ps ++ ps') fun i => S i + T i where
  bare := by rw [bareBelow_append, h.bare, h'.bare]
  stock i := by
    rw [numbersBelow_append, List.count_append]
    exact Nat.add_le_add (h.stock i) (h'.stock i)

lemma cons (h : Marks [l] [p] S) (h' : Marks ls ps T) :
    Marks (l :: ls) (p :: ps) fun i => S i + T i :=
  h.append h'

lemma token {t : Token} (h : Marks ls ps S) : Marks (.token t :: ls) (.token t :: ps) S :=
  ⟨by rw [← h.bare]; rfl, h.stock⟩

lemma value {v : Literal} (h : Marks ls ps S) : Marks (.value v :: ls) (.value v :: ps) S :=
  ⟨by rw [← h.bare]; rfl, h.stock⟩

lemma tokens (ts : List Token) : Marks (ts.map .token) (ts.map .token) zero := by
  induction ts with
  | nil => exact nil
  | cons t ts ih => exact token ih

lemma node (h : Marks ls ps S) :
    Marks [.tree (.node n label line ls)] [.tree (.plain label line ps)]
      fun i => S i + one n i where
  bare := by
    rw [← h.bare]
    rfl
  stock i := by
    have hn : (numbersBelow [.tree (.node n label line ls)]).count i =
        (numbersBelow ls).count i + one n i := by
      simp [numbersBelow, subtreesBelow, subtreesOfLeaf, subtrees, number, one, List.count_cons]
    rw [hn]
    exact Nat.add_le_add_right (h.stock i) _

theorem children {depth : Option Nat} {label' : String} {line' : Nat}
    (h : Marks [.tree (.node n label line ls)] [.tree (.node label' line' depth ps)] S) :
    label = label' ∧ depth = none ∧ Marks ls ps S := by
  have hbare := h.bare
  simp only [bareBelow_cons, plainLeaf, plain, List.cons.injEq, Leaf.tree.injEq,
    Tree.node.injEq] at hbare
  obtain ⟨⟨rfl, -, rfl, rfl⟩, -⟩ := hbare
  refine ⟨rfl, rfl, rfl, fun i => Nat.le_trans ?_ (h.stock i)⟩
  exact List.Sublist.count_le i (by simp [numbersBelow, subtreesBelow, subtreesOfLeaf, subtrees])

lemma eq_token {t : Token} (h : Marks ls [.token t] S) : ls = [.token t] := by
  obtain _ | ⟨l, _ | ⟨l', ls⟩⟩ := ls
  · simpa using h.bare
  · cases l <;> simpa [plainLeaf] using h.bare
  · simpa using h.bare

lemma nodup {a b : Nat} (h : Marks ls ps (between a b)) : (numbersBelow ls).Nodup := by
  refine List.nodup_iff_count_le_one.mpr fun i => Nat.le_trans (h.stock i) ?_
  unfold between
  split <;> omega

lemma mem_between {a b i : Nat} (h : Marks ls ps (between a b)) (hi : i ∈ numbersBelow ls) :
    a ≤ i ∧ i < b := by
  have hpos := Nat.lt_of_lt_of_le (List.count_pos_iff.mpr hi) (h.stock i)
  unfold between at hpos
  split at hpos
  · assumption
  · cases hpos

end Marks

abbrev Shows {β : Type} (tree : β → Tree) (t : Numbered) (y : β) (S : Stock) : Prop :=
  Marks [.tree t] [.tree (tree y)] S

abbrev ShowsList {β : Type} (tree : β → Tree) (ts : List Numbered) (ys : List β) (S : Stock) :
    Prop :=
  Marks (ts.map .tree) ((ys.map tree).map .tree) S

inductive ShowsOption {β : Type} (tree : β → Tree) : Option Numbered → Option β → Stock → Prop where
  | none : ShowsOption tree none none zero
  | some {t : Numbered} {y : β} {S : Stock} (h : Shows tree t y S) :
      ShowsOption tree (some t) (some y) S

namespace Builder

variable {α β γ δ : Type} {P S : Stock} {Q : α → β → Stock → Prop} {R : γ → δ → Stock → Prop}

inductive Ends (P : Stock) (first : Nat) (Q : α → β → Stock → Prop) :
    EStateM.Result Misread Desk α → EStateM.Result Misread Cursor β → Prop where
  | ok {x : α} {y : β} {c : Cursor} {next : Nat} {S : Stock} (hn : first ≤ next)
      (hS : ∀ i, S i ≤ P i + between first next i) (hQ : Q x y S) :
      Ends P first Q (.ok x ⟨c, next⟩) (.ok y c)
  | error {e : Misread} {c : Cursor} {next : Nat} (hn : first ≤ next) :
      Ends P first Q (.error e ⟨c, next⟩) (.error e c)

theorem Ends.after {first next : Nat} {a : EStateM.Result Misread Desk α}
    {b : EStateM.Result Misread Cursor β} (h : Ends S next Q a b) (hn : first ≤ next)
    (hS : ∀ i, S i ≤ P i + between first next i) : Ends P first Q a b := by
  cases h with
  | error hn' => exact .error (Nat.le_trans hn hn')
  | ok hn' hT hQ =>
    refine .ok (Nat.le_trans hn hn') (fun i => ?_) hQ
    have hSi := hS i
    have hTi := hT i
    have hsum := between_add hn hn' i
    omega

def Builds (P : Stock) (m : Builder α) (r : Reader β) (Q : α → β → Stock → Prop) : Prop :=
  ∀ c first, Ends P first Q (m ⟨c, first⟩) (r c)

variable {m : Builder α} {r : Reader β} {k : α → Builder γ} {k' : β → Reader δ}

lemma builds_pure {x : α} {y : β} (h : Q x y P) : Builds P (pure x) (pure y) Q :=
  fun _ _ => .ok (Nat.le_refl _) (fun i => Nat.le_add_right (P i) _) h

theorem Builds.split {F : Stock} (h : Builds S m r Q) (hP : ∀ i, F i + S i ≤ P i)
    (hk : ∀ x y T, Q x y T → Builds (fun i => F i + T i) (k x) (k' y) R) :
    Builds P (m >>= k) (r >>= k') R := by
  intro c first
  have hd := h c first
  change Ends P first R (EStateM.bind m k ⟨c, first⟩) (EStateM.bind r k' c)
  unfold EStateM.bind
  generalize m ⟨c, first⟩ = a at hd ⊢
  generalize r c = b at hd ⊢
  cases hd with
  | error hn => exact .error hn
  | @ok x y c next T hn hT hq =>
    refine (hk x y T hq c next).after hn fun i => ?_
    have hPi := hP i
    have hTi := hT i
    omega

lemma Builds.bind (h : Builds zero m r Q)
    (hk : ∀ x y S, Q x y S → Builds (fun i => P i + S i) (k x) (k' y) R) :
    Builds P (m >>= k) (r >>= k') R :=
  h.split (fun _ => Nat.le_refl _) hk

theorem Builds.start (h : Builds zero m r Q) (hk : ∀ x y S, Q x y S → Builds S (k x) (k' y) R) :
    Builds zero (m >>= k) (r >>= k') R := by
  refine h.bind fun x y S hx => ?_
  simpa [zero] using hk x y S hx

theorem Builds.aside {F : Stock} {Q : α → Stock → Prop} {r : Reader δ}
    (h : Builds S m (pure ()) fun x _ T => Q x T) (hP : ∀ i, F i + S i ≤ P i)
    (hk : ∀ x T, Q x T → Builds (fun i => F i + T i) (k x) r R) : Builds P (m >>= k) r R := by
  rw [← pure_bind () fun _ => r]
  exact h.split hP fun x _ T hx => hk x T hx

lemma Builds.map {f : α → γ} {g : β → δ} (h : Builds zero m r Q)
    (hfg : ∀ x y S, Q x y S → R (f x) (g y) S) : Builds zero (f <$> m) (g <$> r) R := by
  rw [← bind_pure_comp, ← bind_pure_comp]
  exact h.start fun x y S hx => builds_pure (hfg x y S hx)

theorem builds_read {r : Reader α} {k' : α → Reader δ} (h : ∀ x, Builds P (k x) (k' x) R) :
    Builds P (liftM r >>= k) (r >>= k') R := by
  intro c first
  change Ends P first R (EStateM.bind (reading r) k ⟨c, first⟩) (EStateM.bind r k' c)
  unfold EStateM.bind reading
  dsimp only
  cases r c with
  | ok x c => exact h x c first
  | error e c => exact .error (Nat.le_refl _)

lemma builds_fail {t : Token} {problem : Problem} :
    Builds P (liftM (Reader.fail t problem : Reader α)) (Reader.fail t problem : Reader β) Q :=
  fun _ _ => .error (Nat.le_refl _)

lemma builds_get {f : Desk → Builder γ} {g : Cursor → Reader δ}
    (h : ∀ c n, Builds P (f ⟨c, n⟩) (g c) R) : Builds P (get >>= f) (get >>= g) R :=
  fun c first => h c first c first

lemma builds_node {label : String} {line : Nat} {ls : List NumberedLeaf}
    {k : Numbered → Builder γ} {r : Reader δ}
    (h : ∀ n, Builds (fun i => P i + one n i) (k (.node n label line ls)) r R) :
    Builds P (node label line ls >>= k) r R := by
  intro c first
  change Ends P first R (k (.node first label line ls) ⟨c, first + 1⟩) (r c)
  refine (h first c (first + 1)).after (Nat.le_succ first) fun i => ?_
  exact Nat.add_le_add_left (Nat.le_of_eq (between_succ first i).symm) (P i)

theorem builds_last {label : String} {line : Nat} {ls : List NumberedLeaf} {y : β}
    {Q : Numbered → β → Stock → Prop}
    (h : ∀ n, Q (.node n label line ls) y fun i => P i + one n i) :
    Builds P (node label line ls) (pure y) Q := by
  rw [← bind_pure (node label line ls)]
  exact builds_node fun n => builds_pure (h n)

lemma builds_orElse {recovery : Builder α} {recovery' : Reader β} (h : Builds P m r Q)
    (h' : Builds P recovery recovery' Q) :
    Builds P (orElse m recovery) (Reader.orElse r recovery') Q := by
  intro c first
  have hd := h c first
  unfold orElse Reader.orElse
  generalize m ⟨c, first⟩ = a at hd ⊢
  generalize r c = b at hd ⊢
  cases hd with
  | ok hn hS hq => exact .ok hn hS hq
  | @error e c next hn =>
    -- The nodes of the first builder are dropped, so the stock is as it was, but their numbers
    -- are not given again.
    exact (h' c next).after hn fun i => Nat.le_add_right (P i) _

lemma builds_collect {stop : Cursor → Bool} {item : Builder α} {item' : Reader β}
    {R : List α → List β → Stock → Prop} (hnil : R [] [] zero)
    (hcons : ∀ x y xs ys S T, Q x y S → R xs ys T → R (x :: xs) (y :: ys) fun i => S i + T i)
    (h : Builds zero item item' Q) :
    Builds zero (collect stop item) (Reader.collect stop item') R := by
  have go : ∀ n, Builds zero (collect.go stop item n) (Reader.collect.go stop item' n) R := by
    intro n
    induction n with
    | zero => exact builds_pure hnil
    | succ n ih =>
      refine builds_get fun c _ => ?_
      dsimp only
      split
      · exact builds_pure hnil
      · exact h.start fun x y S hx => ih.bind fun xs ys T hxs =>
          builds_pure (hcons x y xs ys S T hx hxs)
  exact builds_get fun c _ => go c.rest.length

lemma builds_commaList {tooMany : Option Problem} {item : Builder α} {item' : Reader β}
    {R : List α → List β → Stock → Prop} (hnil : R [] [] zero)
    (hcons : ∀ x y xs ys S T, Q x y S → R xs ys T → R (x :: xs) (y :: ys) fun i => S i + T i)
    (h : Builds zero item item' Q) :
    Builds zero (commaList tooMany item) (Reader.commaList tooMany item') R := by
  have go : ∀ n count, Builds zero (commaList.go tooMany item n count)
      (Reader.commaList.go tooMany item' n count) R := by
    intro n
    induction n with
    | zero => exact fun _ => builds_pure hnil
    | succ n ih =>
      intro count
      rw [Reader.commaList_go_succ]
      refine builds_read (r := checkCount tooMany count) fun _ => h.start fun x y S hx =>
        builds_read fun o => ?_
      cases o with
      | none => exact builds_pure (by simpa [zero] using hcons x y [] [] S zero hx hnil)
      | some comma =>
        exact (ih (count + 1)).bind fun xs ys T hxs => builds_pure (hcons x y xs ys S T hx hxs)
  exact builds_get fun c _ => go (c.rest.length + 1) 0

lemma builds_chain {ops : List Kind} {label : String} {join : Expr → Token → Expr → Expr}
    {operand : Builder Numbered} {operand' : Reader Expr}
    (hjoin : ∀ l op r, (join l op r).tree = .ofInfix label l.tree op r.tree)
    (h : Builds zero operand operand' (Shows Expr.tree)) :
    Builds zero (chain ops label operand) (Reader.chain ops join operand') (Shows Expr.tree) := by
  have go : ∀ n t e S, Shows Expr.tree t e S → Builds S (chain.go ops label operand n t)
      (Reader.chain.go ops join operand' n e) (Shows Expr.tree) := by
    intro n
    induction n with
    | zero => exact fun t e S ht => builds_pure ht
    | succ n ih =>
      refine fun t e S ht => builds_read fun o => ?_
      cases o with
      | none => exact builds_pure ht
      | some op =>
        refine h.bind fun u e' T hu => builds_node fun number => ih _ _ _ ?_
        rw [Shows, hjoin]
        exact .node (ht.cons (.token hu))
  refine h.start fun t e S ht => builds_read fun b => ?_
  split
  · exact builds_get fun c _ => go c.rest.length t e S ht
  · exact builds_pure ht

theorem builds_afterToken {kinds : List Kind} {tree : β → Tree} {m : Builder Numbered}
    {f : Option Token → Reader (Option β)} {k : Option Numbered → Builder γ}
    {k' : Option β → Reader δ} (hsome : ∀ t, f (some t) = some <$> r) (hnone : f none = pure none)
    (h : Builds zero m r (Shows tree))
    (hk : ∀ o o' S, ShowsOption tree o o' S → Builds (fun i => P i + S i) (k o) (k' o') R) :
    Builds P (afterToken kinds m >>= k) (Reader.accept? kinds >>= fun o => f o >>= k') R := by
  rw [← bind_assoc]
  refine Builds.bind (builds_read fun o => ?_) hk
  cases o with
  | none =>
    rw [hnone]
    exact builds_pure .none
  | some t =>
    rw [hsome]
    exact h.map fun _ _ _ => .some

theorem builds_beforeToken {kind : Kind} {tree : β → Tree} {m : Builder Numbered}
    {k : Option Numbered → Builder γ} {k' : Option β → Reader δ}
    (h : Builds zero m r (Shows tree))
    (hk : ∀ o o' S, ShowsOption tree o o' S → Builds (fun i => P i + S i) (k o) (k' o') R) :
    Builds P (beforeToken kind m >>= k)
      (Reader.sees kind >>= fun b => (if b then pure none else some <$> r) >>= k') R := by
  rw [← bind_assoc]
  refine Builds.bind (builds_read fun b => ?_) hk
  split
  · exact builds_pure .none
  · exact h.map fun _ _ _ => .some

end Builder

end Lox
