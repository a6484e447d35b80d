import Mathlib.Algebra.Order.BigOperators.Group.Finset
import Mathlib.Data.Multiset.Filter
import Mathlib.Data.Multiset.MapFold

/-!
# Reference-counted handles that own handles

General support for shared buffers. A buffer is kept while a handle to it exists; a buffer may own
a handle to another one and a share of a token, which it gives up when it goes. A token is released
when its last share is given up. What the counts say is that a token is held exactly as long as some
handle leads to a buffer with a share of it. Nothing here names what the tokens stand for.
-/

namespace MsgTrans.Base

/-- A handle to a buffer with contents of its own, or to one that owns another handle and a share of
a token. -/
inductive Handle (β : Type) where
  | plain (buffer : Nat) (content : β)
  | owner (buffer : Nat) (inner : Handle β) (token : Nat)
  deriving DecidableEq, Repr

namespace Handle

variable {β : Type}

/-- The buffer whose references the handle counts for. -/
def buffer : Handle β → Nat
  | .plain buffer _ => buffer
  | .owner buffer _ _ => buffer

/-- The contents, whoever owns them. -/
def content : Handle β → β
  | .plain _ content => content
  | .owner _ inner _ => inner.content

end Handle

/-- The reference counts of the buffers and the shares of the tokens. -/
structure Store where
  refs : Nat → Nat
  nextBuffer : Nat
  shares : Nat → Nat
  nextToken : Nat

namespace Store

variable {β : Type}

/-- Nothing is allocated. -/
def empty : Store := ⟨fun _ ↦ 0, 0, fun _ ↦ 0, 0⟩

/-- A new buffer with its first handles. -/
def alloc (s : Store) (contents : List β) : List (Handle β) × Store :=
  (contents.map (.plain s.nextBuffer),
    { s with
      refs := Function.update s.refs s.nextBuffer contents.length
      nextBuffer := s.nextBuffer + 1 })

/-- A further handle to the same buffer. -/
def clone (s : Store) (h : Handle β) : Store :=
  { s with refs := Function.update s.refs h.buffer (s.refs h.buffer + 1) }

/-- A token without a share yet. -/
def mint (s : Store) : Nat × Store := (s.nextToken, { s with nextToken := s.nextToken + 1 })

/-- A new buffer that owns the handle and a further share of the token. -/
def wrap (s : Store) (h : Handle β) (token : Nat) : Handle β × Store :=
  (.owner s.nextBuffer h token,
    { s with
      refs := Function.update s.refs s.nextBuffer 1
      nextBuffer := s.nextBuffer + 1
      shares := Function.update s.shares token (s.shares token + 1) })

/-- One handle to a buffer less. -/
def unref (s : Store) (buffer : Nat) : Store :=
  { s with refs := Function.update s.refs buffer (s.refs buffer - 1) }

/-- One share of a token less, and the token if that was the last. -/
def give (s : Store) (token : Nat) : List Nat × Store :=
  let s' := { s with shares := Function.update s.shares token (s.shares token - 1) }
  (if s'.shares token = 0 then [token] else [], s')

/-- Drop a handle: with the last one to a buffer go the handle and the share it owns. The tokens
that are released with it, in their order. -/
def drop (s : Store) : Handle β → List Nat × Store
  | .plain buffer _ => ([], s.unref buffer)
  | .owner buffer inner token =>
    let s' := s.unref buffer
    if s'.refs buffer = 0 then
      let dropped := s'.drop inner
      let given := dropped.2.give token
      (dropped.1 ++ given.1, given.2)
    else ([], s')

section Counts

variable (s : Store) (h : Handle β) (b t t' : Nat)

theorem alloc_refs (contents : List β) : (s.alloc contents).2.refs b =
    if b = s.nextBuffer then contents.length else s.refs b := Function.update_apply ..

theorem clone_refs : (s.clone h).refs b = s.refs b + if h.buffer = b then 1 else 0 := by
  rw [clone]
  simp only [Function.update_apply, eq_comm (a := b)]
  split
  next heq => rw [heq]
  next => rfl

theorem wrap_refs : (s.wrap h t).2.refs b = if b = s.nextBuffer then 1 else s.refs b :=
  Function.update_apply ..

theorem wrap_shares : (s.wrap h t).2.shares t' = s.shares t' + if t = t' then 1 else 0 := by
  rw [wrap]
  simp only [Function.update_apply, eq_comm (a := t')]
  split
  next heq => rw [heq]
  next => rfl

theorem unref_refs (b' : Nat) : (s.unref b').refs b = s.refs b - if b' = b then 1 else 0 := by
  rw [unref]
  simp only [Function.update_apply, eq_comm (a := b)]
  split
  next heq => rw [heq]
  next => rfl

theorem give_shares : (s.give t).2.shares t' = s.shares t' - if t = t' then 1 else 0 := by
  rw [give]
  simp only [Function.update_apply, eq_comm (a := t')]
  split
  next heq => rw [heq]
  next => rfl

theorem mem_give : t' ∈ (s.give t).1 ↔ t' = t ∧ (s.give t).2.shares t = 0 := by
  simp only [give]
  split
  next h => simp only [List.mem_singleton, h, and_true]
  next h => simp only [List.not_mem_nil, h, and_false]

end Counts

/-- What a drop does to the tokens: none gains a share, and those released had one and have none. -/
structure Releases (s s' : Store) (tokens : List Nat) : Prop where
  next : s'.nextToken = s.nextToken
  le : ∀ t, s'.shares t ≤ s.shares t
  nodup : tokens.Nodup
  mem_iff : ∀ t, t ∈ tokens ↔ 0 < s.shares t ∧ s'.shares t = 0

end Store

/-- A buffer that owns a handle and a share. -/
structure Node (β : Type) where
  buffer : Nat
  inner : Handle β
  token : Nat

/-- A handle to it. -/
def Node.handle {β : Type} (n : Node β) : Handle β := .owner n.buffer n.inner n.token

/-- The handles that are held, and those that buffers own. -/
def references {β : Type} (held : Multiset (Handle β)) (nodes : Multiset (Node β)) :
    Multiset (Handle β) :=
  held + nodes.map Node.inner

/-- The counts are those of the handles held and of the buffers that own something, with some shares
about to be given up. -/
structure Counted {β : Type} (s : Store) (held : Multiset (Handle β)) (nodes : Multiset (Node β))
    (loose : Multiset Nat) : Prop where
  refs : ∀ b, s.refs b = (references held nodes).countP (·.buffer = b)
  shares : ∀ t, s.shares t = nodes.countP (·.token = t) + loose.count t
  present : ∀ n : Node β, n.handle ∈ references held nodes → n ∈ nodes
  plain : ∀ b c, Handle.plain b c ∈ references held nodes → ∀ n ∈ nodes, n.buffer ≠ b
  used : ∀ n ∈ nodes, 0 < s.refs n.buffer
  distinct : (nodes.map Node.buffer).Nodup
  older : ∀ n ∈ nodes, n.inner.buffer < n.buffer
  bounded : ∀ h ∈ references held nodes, h.buffer < s.nextBuffer
  minted : ∀ t, 0 < s.shares t → t < s.nextToken

namespace Counted

variable {β : Type} {s : Store} {held : Multiset (Handle β)} {nodes : Multiset (Node β)}
  {loose : Multiset Nat} {h : Handle β} {t : Nat}

theorem empty : Counted (β := β) .empty 0 0 0 where
  refs _ := rfl
  shares _ := rfl
  present _ hn := by simp [references] at hn
  plain _ _ hn := by simp [references] at hn
  used _ hn := by simp at hn
  distinct := by simp
  older _ hn := by simp at hn
  bounded _ hn := by simp [references] at hn
  minted _ hpos := absurd hpos (Nat.lt_irrefl 0)

@[simp] theorem references_cons : references (h ::ₘ held) nodes = h ::ₘ references held nodes :=
  Multiset.cons_add _ _ _

@[simp] theorem references_node (n : Node β) :
    references held (n ::ₘ nodes) = n.inner ::ₘ references held nodes := by
  rw [references, Multiset.map_cons, Multiset.add_cons, references]

theorem mem_references (hh : h ∈ held) : h ∈ references held nodes :=
  Multiset.mem_add.mpr (.inl hh)

/-- No handle leads to a buffer that is still to come. -/
theorem refs_next (hc : Counted s held nodes loose) {b : Nat} (hb : s.nextBuffer ≤ b) :
    s.refs b = 0 := by
  rw [hc.refs, Multiset.countP_eq_zero]
  intro h hh heq
  have hlt := hc.bounded h hh
  omega

/-- A further handle to a buffer. -/
theorem clone (hc : Counted s held nodes loose) (hh : h ∈ held) :
    Counted (s.clone h) (h ::ₘ held) nodes loose where
  refs b := by rw [references_cons, Multiset.countP_cons, ← hc.refs b, Store.clone_refs]
  shares := hc.shares
  present n hn := by
    rw [references_cons, Multiset.mem_cons] at hn
    obtain heq | hn := hn
    · exact hc.present n (heq ▸ mem_references hh)
    · exact hc.present n hn
  plain b c hn := by
    rw [references_cons, Multiset.mem_cons] at hn
    obtain heq | hn := hn
    · exact hc.plain b c (heq ▸ mem_references hh)
    · exact hc.plain b c hn
  used n hn := by
    rw [Store.clone_refs]
    exact Nat.lt_of_lt_of_le (hc.used n hn) (Nat.le_add_right _ _)
  distinct := hc.distinct
  older := hc.older
  bounded h' hh' := by
    rw [references_cons, Multiset.mem_cons] at hh'
    obtain rfl | hh' := hh'
    · exact hc.bounded _ (mem_references hh)
    · exact hc.bounded _ hh'
  minted := hc.minted

/-- A buffer that owns something is allocated. -/
theorem node_lt (hc : Counted s held nodes loose) {n : Node β} (hn : n ∈ nodes) :
    n.buffer < s.nextBuffer := by
  by_contra hle
  have hpos := hc.used n hn
  rw [hc.refs_next (Nat.le_of_not_lt hle)] at hpos
  exact Nat.lt_irrefl 0 hpos

theorem alloc_countP (contents : List β) (b : Nat) :
    ((s.alloc contents).1 : Multiset (Handle β)).countP (·.buffer = b) =
      if b = s.nextBuffer then contents.length else 0 := by
  rw [Store.alloc, Multiset.coe_countP, List.countP_map]
  split
  next hb =>
    rw [List.countP_eq_length]
    exact fun c _ ↦ decide_eq_true hb.symm
  next hb =>
    rw [List.countP_eq_zero]
    exact fun c _ h ↦ hb (of_decide_eq_true h).symm

/-- A new buffer with contents of its own. -/
theorem alloc (hc : Counted s held nodes loose) (contents : List β) :
    Counted (s.alloc contents).2 (((s.alloc contents).1 : Multiset (Handle β)) + held) nodes
      loose := by
  have hrefs : references (((s.alloc contents).1 : Multiset (Handle β)) + held) nodes =
      ((s.alloc contents).1 : Multiset (Handle β)) + references held nodes := Multiset.add_assoc ..
  have hmem : ∀ h, h ∈ ((s.alloc contents).1 : Multiset (Handle β)) + references held nodes →
      (∃ c, h = .plain s.nextBuffer c) ∨ h ∈ references held nodes := by
    intro h hh
    refine (Multiset.mem_add.mp hh).imp_left fun hnew ↦ ?_
    obtain ⟨c, -, rfl⟩ := List.mem_map.mp (Multiset.mem_coe.mp hnew)
    exact ⟨c, rfl⟩
  constructor
  · intro b
    rw [hrefs, Multiset.countP_add, ← hc.refs, Store.alloc_refs, alloc_countP]
    split
    next hb => rw [hb, hc.refs_next le_rfl, Nat.add_zero]
    next hb => rw [Nat.zero_add]
  · exact hc.shares
  · intro n hn
    rw [hrefs] at hn
    obtain ⟨c, hc'⟩ | hn := hmem _ hn
    · cases hc'
    · exact hc.present n hn
  · intro b c hb n hn
    rw [hrefs] at hb
    obtain ⟨c', hc'⟩ | hb := hmem _ hb
    · cases hc'
      exact Nat.ne_of_lt (hc.node_lt hn)
    · exact hc.plain b c hb n hn
  · intro n hn
    rw [Store.alloc_refs, if_neg (Nat.ne_of_lt (hc.node_lt hn))]
    exact hc.used n hn
  · exact hc.distinct
  · exact hc.older
  · intro h hh
    rw [hrefs] at hh
    obtain ⟨c, rfl⟩ | hh := hmem _ hh
    · exact Nat.lt_succ_self _
    · exact Nat.lt_succ_of_lt (hc.bounded h hh)
  · exact hc.minted

/-- A new token. -/
theorem mint (hc : Counted s held nodes loose) : Counted s.mint.2 held nodes loose where
  refs := hc.refs
  shares := hc.shares
  present := hc.present
  plain := hc.plain
  used := hc.used
  distinct := hc.distinct
  older := hc.older
  bounded := hc.bounded
  minted t ht := Nat.lt_succ_of_lt (hc.minted t ht)

/-- A new buffer that owns a handle and a share. -/
theorem wrap (hc : Counted s (h ::ₘ held) nodes loose) (ht : t < s.nextToken) :
    Counted (s.wrap h t).2 ((s.wrap h t).1 ::ₘ held) (⟨s.nextBuffer, h, t⟩ ::ₘ nodes) loose := by
  have hrefs : references ((s.wrap h t).1 ::ₘ held) (⟨s.nextBuffer, h, t⟩ ::ₘ nodes) =
      (s.wrap h t).1 ::ₘ references (h ::ₘ held) nodes := by
    rw [references_cons, references_node, references_cons]
  have hlt : ∀ n ∈ nodes, n.buffer < s.nextBuffer := fun n hn ↦ hc.node_lt hn
  constructor
  · intro b
    rw [hrefs, Multiset.countP_cons, ← hc.refs, Store.wrap_refs]
    split
    next hb =>
      subst hb
      rw [hc.refs_next le_rfl, Store.wrap, Handle.buffer, if_pos rfl]
    next hb =>
      rw [Store.wrap, Handle.buffer, if_neg (Ne.symm hb), Nat.add_zero]
  · intro t'
    rw [Store.wrap_shares, hc.shares, Multiset.countP_cons]
    exact Nat.add_right_comm ..
  · intro n hn
    rw [hrefs, Multiset.mem_cons] at hn
    obtain heq | hn := hn
    · obtain ⟨b, inner, token⟩ := n
      cases heq
      exact Multiset.mem_cons_self _ _
    · exact Multiset.mem_cons_of_mem (hc.present n hn)
  · intro b c hb n hn
    rw [hrefs, Multiset.mem_cons] at hb
    obtain heq | hb := hb
    · cases heq
    · obtain rfl | hn := Multiset.mem_cons.mp hn
      · exact Nat.ne_of_gt (hc.bounded _ hb)
      · exact hc.plain b c hb n hn
  · intro n hn
    rw [Store.wrap_refs]
    obtain rfl | hn := Multiset.mem_cons.mp hn
    · rw [if_pos rfl]
      exact Nat.one_pos
    · rw [if_neg (Nat.ne_of_lt (hlt n hn))]
      exact hc.used n hn
  · rw [Multiset.map_cons, Multiset.nodup_cons]
    refine ⟨fun hmem ↦ ?_, hc.distinct⟩
    obtain ⟨n, hn, heq⟩ := Multiset.mem_map.mp hmem
    exact Nat.ne_of_lt (hlt n hn) heq
  · intro n hn
    obtain rfl | hn := Multiset.mem_cons.mp hn
    · exact hc.bounded h (mem_references (Multiset.mem_cons_self h held))
    · exact hc.older n hn
  · intro h' hh'
    rw [hrefs, Multiset.mem_cons] at hh'
    obtain rfl | hh' := hh'
    · exact Nat.lt_succ_self _
    · exact Nat.lt_succ_of_lt (hc.bounded h' hh')
  · intro t' ht'
    rw [Store.wrap_shares] at ht'
    by_cases heq : t = t'
    · exact heq ▸ ht
    · rw [if_neg heq] at ht'
      exact hc.minted t' ht'

/-- A share is given up. -/
theorem give (hc : Counted s held nodes (t ::ₘ loose)) :
    Counted (s.give t).2 held nodes loose where
  refs := hc.refs
  shares t' := by
    rw [Store.give_shares, hc.shares, Multiset.count_cons]
    split <;> split <;> omega
  present := hc.present
  plain := hc.plain
  used := hc.used
  distinct := hc.distinct
  older := hc.older
  bounded := hc.bounded
  minted t' ht' := by
    rw [Store.give_shares] at ht'
    exact hc.minted t' (by omega)

/-- A handle is given up while others lead to its buffer. -/
theorem unref (hc : Counted s (h ::ₘ held) nodes loose)
    (hused : ∀ n ∈ nodes, n.buffer = h.buffer → 0 < (s.unref h.buffer).refs h.buffer) :
    Counted (s.unref h.buffer) held nodes loose where
  refs b := by
    rw [Store.unref_refs, hc.refs, references_cons, Multiset.countP_cons]
    omega
  shares := hc.shares
  present n hn := hc.present n (by rw [references_cons]; exact Multiset.mem_cons_of_mem hn)
  plain b c hn := hc.plain b c (by rw [references_cons]; exact Multiset.mem_cons_of_mem hn)
  used n hn := by
    by_cases hb : h.buffer = n.buffer
    · rw [← hb]
      exact hused n hn hb.symm
    · rw [Store.unref_refs, if_neg hb]
      exact hc.used n hn
  distinct := hc.distinct
  older := hc.older
  bounded h' hh' := hc.bounded h' (by rw [references_cons]; exact Multiset.mem_cons_of_mem hh')
  minted := hc.minted

/-- With the last handle to a buffer, what it owns is given up. -/
theorem free {n : Node β} (hc : Counted s (n.handle ::ₘ held) (n ::ₘ nodes) loose)
    (hlast : (s.unref n.buffer).refs n.buffer = 0) :
    Counted (s.unref n.buffer) (n.inner ::ₘ held) nodes (n.token ::ₘ loose) := by
  have hrefs : ∀ b, (s.unref n.buffer).refs b =
      (n.inner ::ₘ references held nodes).countP (·.buffer = b) := by
    intro b
    have hb : n.handle.buffer = n.buffer := rfl
    rw [Store.unref_refs, hc.refs, references_cons, references_node, Multiset.countP_cons, hb]
    omega
  have hgone : ∀ h ∈ n.inner ::ₘ references held nodes, h.buffer ≠ n.buffer := by
    rw [hrefs, Multiset.countP_eq_zero] at hlast
    exact hlast
  have hold : ∀ h ∈ n.inner ::ₘ references held nodes,
      h ∈ references (n.handle ::ₘ held) (n ::ₘ nodes) := by
    intro h hh
    rw [references_cons, references_node]
    exact Multiset.mem_cons_of_mem hh
  have hdistinct := hc.distinct
  rw [Multiset.map_cons, Multiset.nodup_cons] at hdistinct
  constructor
  · intro b
    rw [references_cons]
    exact hrefs b
  · intro t
    have hshares := hc.shares t
    rw [Multiset.countP_cons] at hshares
    rw [Multiset.count_cons]
    have hsame : (s.unref n.buffer).shares t = s.shares t := rfl
    rw [hsame, hshares]
    simp only [eq_comm (a := t)]
    omega
  · intro m hm
    rw [references_cons] at hm
    obtain rfl | hmem := Multiset.mem_cons.mp (hc.present m (hold _ hm))
    · exact absurd rfl (hgone _ hm)
    · exact hmem
  · intro b c hb m hm
    rw [references_cons] at hb
    exact hc.plain b c (hold _ hb) m (Multiset.mem_cons_of_mem hm)
  · intro m hm
    have hne : n.buffer ≠ m.buffer := fun heq ↦
      hdistinct.1 (heq ▸ Multiset.mem_map_of_mem _ hm)
    rw [Store.unref_refs, if_neg hne]
    exact hc.used m (Multiset.mem_cons_of_mem hm)
  · exact hdistinct.2
  · exact fun m hm ↦ hc.older m (Multiset.mem_cons_of_mem hm)
  · intro h hh
    rw [references_cons] at hh
    exact hc.bounded h (hold h hh)
  · exact hc.minted

/-- A token that is about to lose a share has one. -/
theorem loose_pos (hc : Counted s held nodes (t ::ₘ loose)) : 0 < s.shares t := by
  rw [hc.shares, Multiset.count_cons_self]
  omega

theorem releases_nil {s' : Store} (hnext : s'.nextToken = s.nextToken)
    (hshares : s'.shares = s.shares) : s.Releases s' [] where
  next := hnext
  le t := by rw [hshares]
  nodup := List.nodup_nil
  mem_iff t := by
    rw [hshares]
    simp only [List.not_mem_nil, false_iff, not_and]
    omega

/-- A share is given up after other tokens were released. -/
theorem releases_give {s' : Store} {tokens : List Nat} (hrel : s.Releases s' tokens)
    (hpos : 0 < s'.shares t) : s.Releases (s'.give t).2 (tokens ++ (s'.give t).1) := by
  have hle : ∀ t', (s'.give t).2.shares t' ≤ s'.shares t' := by
    intro t'
    rw [Store.give_shares]
    exact Nat.sub_le _ _
  have hkept : t ∉ tokens := by
    rw [hrel.mem_iff]
    omega
  refine ⟨hrel.next, fun t' ↦ (hle t').trans (hrel.le t'), ?_, fun t' ↦ ?_⟩
  · refine List.nodup_append'.mpr ⟨hrel.nodup, ?_, fun t' ht' hgiven ↦ ?_⟩
    · rw [Store.give]
      split
      next => exact List.nodup_singleton _
      next => exact List.nodup_nil
    · obtain ⟨rfl, -⟩ := Store.mem_give .. |>.mp hgiven
      exact hkept ht'
  · rw [List.mem_append, hrel.mem_iff, Store.mem_give]
    have hall := hrel.le t'
    obtain rfl | hne := eq_or_ne t' t
    · have hold := Nat.lt_of_lt_of_le hpos hall
      have hnot : ¬s'.shares t' = 0 := Nat.ne_of_gt hpos
      simp [hold, hnot]
    · have hsame : (s'.give t).2.shares t' = s'.shares t' := by
        rw [Store.give_shares, if_neg (Ne.symm hne), Nat.sub_zero]
      simp [hne, hsame]

/-- A handle is dropped, and everything that goes with it. -/
theorem drop (hc : Counted s (h ::ₘ held) nodes loose) :
    ∃ nodes', Counted (s.drop h).2 held nodes' loose ∧ s.Releases (s.drop h).2 (s.drop h).1 := by
  induction h generalizing s nodes loose with
  | plain b c =>
    have hplain := hc.plain b c (mem_references (Multiset.mem_cons_self _ _))
    exact ⟨nodes, hc.unref fun n hn heq ↦ absurd heq (hplain n hn), releases_nil rfl rfl⟩
  | owner b inner t ih =>
    obtain ⟨rest, rfl⟩ := Multiset.exists_cons_of_mem
      (hc.present ⟨b, inner, t⟩ (mem_references (Multiset.mem_cons_self _ _)))
    simp only [Store.drop]
    split
    next hlast =>
      have hfree : Counted (s.unref b) (inner ::ₘ held) rest (t ::ₘ loose) :=
        free (n := ⟨b, inner, t⟩) hc hlast
      obtain ⟨nodes', hc', hrel⟩ := ih hfree
      exact ⟨nodes', hc'.give, releases_give ⟨hrel.next, hrel.le, hrel.nodup, hrel.mem_iff⟩
        hc'.loose_pos⟩
    next hmore =>
      exact ⟨_, hc.unref fun n hn heq ↦ Nat.pos_of_ne_zero hmore, releases_nil rfl rfl⟩

end Counted

end MsgTrans.Base
