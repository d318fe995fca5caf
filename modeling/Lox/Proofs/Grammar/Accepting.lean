import Lox.Proofs.Grammar.Reading

/-! The rules by which a reader of a phrase is put together from readers of its parts. Where a
phrase ends depends on the tokens that follow it. -/

namespace Lox

namespace Reader

variable {α β : Type}

def Reads (r : Reader α) (ts : List Token) (x : α) (S : List Token → Prop) : Prop :=
  ∀ (c : Cursor) (rest : List Token), c.rest = ts ++ rest → c.finish.kind = .finish →
    S rest → ∃ d, r c = .ok x d ∧ c.Passes ts [] d ∧ d.rest = rest

variable {r : Reader α} {t : Token} {ts us vs : List Token} {x : α} {y : β}
  {S S' : List Token → Prop}

lemma Reads.mono (h : Reads r ts x S) (hs : ∀ rest, S' rest → S rest) :
    Reads r ts x S' :=
  fun c rest hc hf hk => h c rest hc hf (hs _ hk)

lemma reads_pure : Reads (pure x) [] x S :=
  fun c _ hc _ _ => ⟨c, rfl, .refl c, hc⟩

lemma reads_pure_bind {f : α → Reader β} (h : Reads (f x) ts y S) :
    Reads (pure x >>= f) ts y S := h

lemma Reads.bind {f : α → Reader β} (h : Reads r us x S)
    (hs : ∀ rest, S' rest → S (vs ++ rest)) (hf : Reads (f x) vs y S') :
    Reads (r >>= f) (us ++ vs) y S' := by
  intro c rest hc hfin hk
  obtain ⟨d, hd, hpass, hrest⟩ :=
    h c (vs ++ rest) (by rw [hc, List.append_assoc]) hfin (hs rest hk)
  obtain ⟨e, he, hpass', hrest'⟩ := hf d rest hrest (hpass.finish ▸ hfin) hk
  refine ⟨e, ?_, hpass.trans hpass', hrest'⟩
  change EStateM.bind r f c = _
  simp only [EStateM.bind, hd, he]

lemma Reads.bind_last {f : α → Reader β} (h : Reads r ts x S)
    (hs : ∀ rest, S' rest → S rest) (hf : Reads (f x) [] y S') :
    Reads (r >>= f) ts y S' := by
  have := h.bind hs hf
  rwa [List.append_nil] at this

lemma Reads.bind_pure {f : α → β} (h : Reads r ts x S) :
    Reads (r >>= fun x => pure (f x)) ts (f x) S :=
  h.bind_last (fun _ hrest => hrest) reads_pure

lemma Reads.map {f : α → β} (h : Reads r ts x S) : Reads (f <$> r) ts (f x) S := by
  intro c rest hc hf hk
  obtain ⟨d, hd, hpass, hrest⟩ := h c rest hc hf hk
  refine ⟨d, ?_, hpass, hrest⟩
  change EStateM.map f r c = _
  simp only [EStateM.map, hd]

theorem reads_get {f : Cursor → Reader β}
    (h : ∀ (c : Cursor) (rest : List Token), c.rest = ts ++ rest → c.finish.kind = .finish →
      S rest → Reads (f c) ts y S) :
    Reads (get >>= f) ts y S :=
  fun c rest hc hf hk => h c rest hc hf hk c rest hc hf hk

lemma reads_look {f : Token → Reader β} (h : Reads (f t) (t :: ts) y S) :
    Reads (look >>= f) (t :: ts) y S := by
  intro c rest hc hf hk
  obtain rfl : c.peek = t := by simp [Cursor.peek, hc]
  exact h c rest hc hf hk

lemma reads_skip (h : Reads r ts x S) :
    Reads (skip >>= fun _ => r) (t :: ts) x S := by
  intro c rest hc hf hk
  have hpass : c.Passes [t] [] c.advance := by constructor <;> simp [Cursor.advance, hc]
  obtain ⟨d, hd, hpass', hrest⟩ :=
    h c.advance rest (by simp [Cursor.advance, hc]) (hpass.finish ▸ hf) hk
  exact ⟨d, hd, hpass.trans hpass', hrest⟩

lemma reads_expected {what : Expectation} (ht : t.kind = what.kind) :
    Reads (expect what) [t] t S := by
  refine reads_look ?_
  rw [if_pos ht]
  exact reads_skip reads_pure

lemma reads_expect {what : Expectation} {f : Token → Reader β} (ht : t.kind = what.kind)
    (h : Reads (f t) ts y S) : Reads (expect what >>= f) (t :: ts) y S :=
  (reads_expected ht).bind (S := fun _ => True) (fun _ _ => trivial) h

theorem reads_accept {kinds : List Kind} {f : Option Token → Reader β} (ht : t.kind ∈ kinds)
    (h : Reads (f (some t)) ts y S) : Reads (accept? kinds >>= f) (t :: ts) y S := by
  have hr : Reads (accept? kinds) [t] (some t) fun _ => True := by
    refine reads_look ?_
    rw [if_pos (by simpa using ht)]
    exact reads_skip reads_pure
  exact hr.bind (fun _ _ => trivial) h

theorem reads_accept_none {kinds : List Kind} {f : Option Token → Reader β}
    (hk : ∀ rest, S rest → following (ts ++ rest) ∉ kinds)
    (h : Reads (f none) ts y S) : Reads (accept? kinds >>= f) ts y S := by
  suffices hr : Reads (accept? kinds) [] none fun rest => following rest ∉ kinds from
    hr.bind hk h
  intro c rest hc hf hk
  refine ⟨c, ?_, .refl c, hc⟩
  have hc' : c.rest = rest := hc
  change (if kinds.contains c.peek.kind then skip >>= fun _ => pure (some c.peek)
    else pure none : Reader (Option Token)) c = _
  rw [if_neg]
  · rfl
  · rw [Cursor.peek_kind hf, hc']
    simpa using hk

lemma reads_sees {kind : Kind} {f : Bool → Reader β} (b : Bool)
    (hk : ∀ rest, S rest → decide (following (ts ++ rest) = kind) = b)
    (h : Reads (f b) ts y S) : Reads (sees kind >>= f) ts y S := by
  suffices hr : Reads (sees kind) [] b fun rest => decide (following rest = kind) = b from
    hr.bind hk h
  intro c rest hc hf hk
  refine ⟨c, ?_, .refl c, hc⟩
  have hc' : c.rest = rest := hc
  change EStateM.Result.ok (decide (c.peek.kind = kind)) c = _
  rw [Cursor.peek_kind hf, hc', hk]

lemma reads_seesOneOf {kinds : List Kind} {f : Bool → Reader β} (b : Bool)
    (hk : ∀ rest, S rest → kinds.contains (following (ts ++ rest)) = b)
    (h : Reads (f b) ts y S) : Reads (seesOneOf kinds >>= f) ts y S := by
  suffices hr : Reads (seesOneOf kinds) [] b fun rest => kinds.contains (following rest) = b from
    hr.bind hk h
  intro c rest hc hf hk
  refine ⟨c, ?_, .refl c, hc⟩
  have hc' : c.rest = rest := hc
  change EStateM.Result.ok (kinds.contains c.peek.kind) c = _
  rw [Cursor.peek_kind hf, hc', hk]

lemma Reads.orElse {recovery : Reader α} (h : Reads r ts x S) :
    Reads (orElse r recovery) ts x S := by
  intro c rest hc hf hk
  obtain ⟨d, hd, hpass, hrest⟩ := h c rest hc hf hk
  exact ⟨d, by simp only [Reader.orElse, hd], hpass, hrest⟩

section Lists

variable {ops : List Kind} {join : α → Token → α → α} {item : Reader α}
  {R : α → List Token → Prop} {E : α → Kind → Prop} {x y z : α} {xs : List α}

inductive Chained (ops : List Kind) (join : α → Token → α → α) (R : α → List Token → Prop) :
    α → List Token → α → Prop
  | nil {x : α} : Chained ops join R x [] x
  | cons {x y z : α} {op us vs} : op.kind ∈ ops → R y us → Chained ops join R (join x op y) vs z →
      Chained ops join R x (op :: (us ++ vs)) z

lemma Chained.snoc {op : Token} (h : Chained ops join R x ts y) (hop : op.kind ∈ ops)
    (hz : R z us) : Chained ops join R x (ts ++ op :: us) (join y op z) := by
  induction h with
  | nil => simpa using Chained.cons hop hz .nil
  | cons hop' hy _ ih => simpa using Chained.cons hop' hy ih

lemma Chained.following (h : Chained ops join R x ts y) (rest : List Token) :
    ts = [] ∨ following (ts ++ rest) ∈ ops := by
  cases h with
  | nil => exact .inl rfl
  | cons hop => exact .inr (by simpa using hop)

lemma reads_chain_go (hitem : ∀ x ts, R x ts → Reads item ts x (E x <| following ·))
    (hops : ∀ x ts k, R x ts → k ∈ ops → E x k)
    (hends : ∀ x ts rest, R x ts → S rest → E x (following rest))
    (hstop : ∀ rest, S rest → following rest ∉ ops)
    (h : Chained ops join R x ts z) (bound : Nat) (hb : ts.length ≤ bound) :
    Reads (chain.go ops join item bound x) ts z S := by
  induction h generalizing bound with
  | nil =>
    cases bound with
    | zero => exact reads_pure
    | succ bound => exact reads_accept_none (fun rest hk => hstop _ hk) reads_pure
  | @cons x y z op us vs hop hy htail ih =>
    cases bound with
    | zero => simp at hb
    | succ bound =>
      refine reads_accept hop ((hitem y us hy).bind (fun rest hk => ?_) (ih bound ?_))
      · obtain rfl | hvs := htail.following rest
        · exact hends y us _ hy hk
        · exact hops y us _ hy hvs
      · simp only [List.length_cons, List.length_append] at hb
        omega

lemma reads_chain (hitem : ∀ x ts, R x ts → Reads item ts x (E x <| following ·))
    (hops : ∀ x ts k, R x ts → k ∈ ops → E x k)
    (hends : ∀ x ts rest, R x ts → S rest → E x (following rest))
    (hstop : ∀ rest, S rest → following rest ∉ ops)
    (hx : R x us) (h : Chained ops join R x vs z) :
    Reads (chain ops join item) (us ++ vs) z S := by
  refine (hitem x us hx).bind (fun rest hk => ?_) ?_
  · obtain rfl | hvs := h.following rest
    · exact hends x us _ hx hk
    · exact hops x us _ hx hvs
  · cases h with
    | nil => exact reads_seesOneOf false (fun rest hk => by simpa using hstop _ hk) reads_pure
    | cons hop hy htail =>
      refine reads_seesOneOf true (fun rest hk => by simpa using hop) (reads_get fun c _ hc _ _ => ?_)
      exact reads_chain_go hitem hops hends hstop (.cons hop hy htail) _ (by simp [hc])

inductive Listed (R : α → List Token → Prop) : List α → List Token → Prop
  | last {x : α} {ts} : R x ts → Listed R [x] ts
  | more {x : α} {xs comma ts us} : comma.kind = .comma → R x ts → Listed R xs us →
      Listed R (x :: xs) (ts ++ comma :: us)

theorem commaList_go_of_lt {tooMany : Option Problem} {n count : Nat}
    (h : tooMany.isSome → count < maxArguments) :
    commaList.go tooMany item (n + 1) count =
      (item >>= fun x => accept? [.comma] >>= fun o =>
        match o with
        | some _ => commaList.go tooMany item n (count + 1) >>= fun more => pure (x :: more)
        | none => pure [x]) := by
  rw [commaList_go_succ]
  cases tooMany with
  | none => rfl
  | some problem =>
    simp only [if_neg (Nat.not_le.mpr (h rfl))]
    rfl

lemma reads_commaList {tooMany : Option Problem}
    (hitem : ∀ x ts, R x ts → Reads item ts x (E x <| following ·))
    (hcomma : ∀ x ts, R x ts → E x .comma)
    (hends : ∀ x ts rest, R x ts → S rest → E x (following rest))
    (hstop : ∀ rest, S rest → following rest ≠ .comma)
    (h : Listed R xs ts) (hcount : tooMany.isSome → xs.length ≤ maxArguments) :
    Reads (commaList tooMany item) ts xs S := by
  have go (count bound : Nat) (hb : ts.length < bound)
      (hcount : tooMany.isSome → count + xs.length ≤ maxArguments) :
      Reads (commaList.go tooMany item bound count) ts xs S := by
    induction h generalizing count bound with
    | @last x ts hx =>
      obtain ⟨bound, rfl⟩ := Nat.exists_eq_succ_of_ne_zero (Nat.ne_zero_of_lt hb)
      rw [commaList_go_of_lt fun ht => Nat.lt_of_succ_le (by simpa using hcount ht)]
      exact (hitem x ts hx).bind_last (fun rest hk => hends x ts rest hx hk)
        (reads_accept_none (fun rest hk => by simpa using hstop rest hk) reads_pure)
    | @more x xs comma ts us hk hx _ ih =>
      obtain ⟨bound, rfl⟩ := Nat.exists_eq_succ_of_ne_zero (Nat.ne_zero_of_lt hb)
      simp only [List.length_append, List.length_cons] at hb hcount
      rw [commaList_go_of_lt fun ht => by have := hcount ht; omega]
      refine (hitem x ts hx).bind (fun rest _ => ?_) (reads_accept (by simpa using hk) ?_)
      · simpa [hk] using hcomma x ts hx
      · exact (ih (fun ht => by have := hcount ht; omega) (count + 1) bound (by omega)
          fun ht => by have := hcount ht; omega).bind_pure
  refine reads_get fun c _ hc _ _ => go 0 _ (Nat.lt_succ_of_le (by simp [hc])) ?_
  simpa using hcount

inductive Sequence (R : α → List Token → Prop) : List α → List Token → Prop
  | nil : Sequence R [] []
  | cons {x : α} {xs ts us} : R x ts → Sequence R xs us → Sequence R (x :: xs) (ts ++ us)

lemma reads_collect {stop : Cursor → Bool} {E : List Token → Prop}
    (hitem : ∀ x ts, R x ts → Reads item ts x E) (hne : ∀ x ts, R x ts → ts ≠ [])
    (hends : ∀ rest, S rest → E rest) (hnext : ∀ x ts rest, R x ts → E (ts ++ rest))
    (hstart : ∀ (c : Cursor) x ts rest, c.finish.kind = .finish → R x ts → c.rest = ts ++ rest →
      stop c = false)
    (hstop : ∀ c : Cursor, c.finish.kind = .finish → S c.rest → stop c = true)
    (h : Sequence R xs ts) : Reads (collect stop item) ts xs S := by
  have go (bound : Nat) (hb : ts.length ≤ bound) :
      Reads (collect.go stop item bound) ts xs S := by
    induction h generalizing bound with
    | nil =>
      cases bound with
      | zero => exact reads_pure
      | succ bound =>
        refine reads_get fun c rest hc hf hk => ?_
        rw [if_pos (hstop c hf (by simpa [hc] using hk))]
        exact reads_pure
    | @cons x xs ts us hx hxs ih =>
      have hlength := List.length_pos_iff.mpr (hne x ts hx)
      rw [List.length_append] at hb
      obtain ⟨bound, rfl⟩ := Nat.exists_eq_succ_of_ne_zero (n := bound) (by omega)
      refine reads_get fun c rest hc hf hk => ?_
      rw [if_neg (by simp [hstart c x ts (us ++ rest) hf hx (by simp [hc])])]
      refine (hitem x ts hx).bind (fun rest hrest => ?_) (ih bound (by omega)).bind_pure
      cases hxs with
      | nil => exact hends _ hrest
      | cons hy => simpa using hnext _ _ _ hy
  exact reads_get fun c _ hc _ _ => go _ (by simp [hc])

end Lists

end Reader

end Lox
