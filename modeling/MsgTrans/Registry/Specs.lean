import Mathlib.Tactic.Abel
import MsgTrans.Registry.Rules

/-!
# Request registry: every method follows the rules

One specification for each method of the registry: from which tokens it runs and which it
leaves to the code after it. They are stated in front of an arbitrary continuation, with an
arbitrary frame of further tokens, so that a caller applies them by name.
-/

namespace MsgTrans.Registry

open MsgTrans.Base MsgTrans.Wire

/-- The program of call `t`, within the scope `P`, follows the registry's rules. -/
abbrev Keeps (cfg : RegistryConfig) (m : Mode) (t : Nat) (P : Option SessionId → Prop)
    {α : Type} (Q : α → Multiset Tok → Prop) : Task α → Multiset Tok → Prop :=
  Follows (rules cfg m) t (Tok.Within t P) Q

section

variable {cfg : RegistryConfig} {m : Mode} {t : Nat} {P : Option SessionId → Prop} {α : Type}
  {Q : α → Multiset Tok → Prop} {F : Multiset Tok} {key : RequestKey} {tok : RequestToken}

/-- One action with a rule for each answer that is not ruled out. -/
theorem keeps_act {a : Act} {k : a.Resp → Task α} {d : Multiset Tok}
    (h : ∀ r, Refuted m a r d ∨ ∃ e e' F, d = e + F ∧ Moves cfg m t a r e e' ∧
      (∀ x ∈ e', x.Within t P) ∧ Keeps cfg m t P Q (k r) (e' + F)) :
    Keeps cfg m t P Q (.act a k) d :=
  ⟨fun h' ↦ h'.elim, h⟩

/-- An action that moves no token. -/
theorem keeps_neutral {a : Act} {k : a.Resp → Task α} (hm : ∀ r, Moves cfg m t a r 0 0)
    (h : ∀ r, Keeps cfg m t P Q (k r) F) : Keeps cfg m t P Q (.act a k) F :=
  follows_neutral (fun h' ↦ h') hm h

/-- An action that moves the tokens it is given. -/
theorem keeps_move {a : Act} {k : a.Resp → Task α} {e : Multiset Tok}
    (h : ∀ r, ∃ e', Moves cfg m t a r e e' ∧ (∀ x ∈ e', x.Within t P) ∧
      Keeps cfg m t P Q (k r) (e' + F)) : Keeps cfg m t P Q (.act a k) (e + F) :=
  follows_move (fun h' ↦ h') h

/-- An action that gives up nothing. -/
theorem keeps_gain {a : Act} {k : a.Resp → Task α}
    (h : ∀ r, ∃ e', Moves cfg m t a r 0 e' ∧ (∀ x ∈ e', x.Within t P) ∧
      Keeps cfg m t P Q (k r) (e' + F)) : Keeps cfg m t P Q (.act a k) F :=
  follows_gain (fun h' ↦ h') h

theorem scheduleForDeadline_spec {deadlineAt : Instant} {k : Unit → Task α}
    (h : Keeps cfg m t P Q (k ()) F) :
    Keeps cfg m t P Q (scheduleForDeadline cfg key deadlineAt >>= k) F := by
  simp only [scheduleForDeadline, Prog.perform_bind, Prog.act_bind]
  refine keeps_neutral (fun _ ↦ .now) fun now ↦ ?_
  refine keeps_neutral (fun _ ↦ .tickLoad) fun tick ↦ ?_
  exact keeps_neutral (fun _ ↦ .bucketPush) fun _ ↦ h

private theorem within_senderFor (hP : P key.sessionId) (sender : Option Nat) :
    ∀ x ∈ senderFor m key sender, x.Within t P := by
  unfold senderFor
  repeat' split
  all_goals first | exact forall_mem_singleton hP | exact forall_mem_zero

private theorem within_waiterFor (hP : P key.sessionId) :
    ∀ x ∈ waiterFor m key, x.Within t P := by
  unfold waiterFor
  split
  · exact forall_mem_singleton hP
  · exact forall_mem_zero

private theorem within_owedFor (caller : Caller) (target : RequestState) :
    ∀ x ∈ owedFor caller target, x.Within t P := by
  unfold owedFor
  repeat' split
  all_goals first | exact forall_mem_singleton trivial | exact forall_mem_zero

private theorem dropWaiter_from {e : Multiset Tok} {k : Unit → Task α} (hP : P key.sessionId)
    (hm : ∀ sender, Moves cfg m t (.waitersRemove key) sender e (senderFor m key sender))
    (h : Keeps cfg m t P Q (k ()) F) : Keeps cfg m t P Q (dropWaiter key >>= k) (e + F) := by
  simp only [dropWaiter, Prog.perform_bind, Prog.act_bind]
  refine keeps_move fun sender ↦ ⟨_, hm sender, within_senderFor hP sender, ?_⟩
  cases sender with
  | none =>
    rw [show senderFor m key none = 0 from rfl, zero_add]
    exact h
  | some channel =>
    refine keeps_move fun _ ↦ ⟨0, .drop, by simp, ?_⟩
    rw [zero_add]
    exact h

/-- Dropping a waiter settles the look at the waiters that the call owes. -/
theorem dropWaiter_spec {k : Unit → Task α} (hP : P key.sessionId)
    (h : Keeps cfg m t P Q (k ()) F) :
    Keeps cfg m t P Q (dropWaiter key >>= k) (waiterFor m key + F) := by
  refine dropWaiter_from hP (fun sender ↦ ?_) h
  unfold waiterFor
  split
  · exact .waitersSettle
  · exact .waitersRemove

/-- Dropping a waiter owes nothing. -/
theorem dropWaiter_free {k : Unit → Task α} (hP : P key.sessionId)
    (h : Keeps cfg m t P Q (k ()) F) : Keeps cfg m t P Q (dropWaiter key >>= k) F := by
  have h' := dropWaiter_from hP (fun _ ↦ .waitersRemove) h
  rwa [zero_add] at h'

/-- The winner takes its registration out of the map; a waiter may be left behind. -/
theorem removeTerminalEntry_spec {caller : Caller} {k : Unit → Task α} (hP : P tok.sessionId)
    (hkey : tok.key = key) (h : Keeps cfg m t P Q (k ()) (waiterFor m key + F)) :
    Keeps cfg m t P Q (removeTerminalEntry caller key >>= k) ({.subbed t caller tok} + F) := by
  subst hkey
  have hP' : P tok.key.sessionId := by rwa [RequestToken.sessionId_key]
  simp only [removeTerminalEntry, Prog.perform_bind, Prog.act_bind]
  refine keeps_move fun _ ↦ ⟨_, .remove, within_waiterFor hP', ?_⟩
  cases tok.key.sessionId with
  | none => exact h
  | some sid =>
    simp only [Prog.act_bind]
    refine keeps_neutral (fun _ ↦ .sessionLooked) fun runtime ↦ ?_
    cases runtime with
    | none => exact h
    | some rt => exact keeps_neutral (fun _ ↦ .unindex) fun _ ↦ h

/-- The winner takes its registration off the gauge and out of the map. -/
theorem retire_spec {caller : Caller} {k : Unit → Task α} (hP : P tok.sessionId)
    (hkey : tok.key = key) (h : Keeps cfg m t P Q (k ()) (waiterFor m key + F)) :
    Keeps cfg m t P Q (.act .pendingFetchSub fun _ ↦ removeTerminalEntry caller key >>= k)
      ({.won t caller tok} + F) :=
  keeps_move fun _ ↦ ⟨_, .pendingSubWon, forall_mem_singleton ⟨rfl, hP⟩,
    removeTerminalEntry_spec hP hkey h⟩

private theorem session_key (hP : P key.sessionId) {entry : RequestEntry} (hkey : entry.key = key) :
    P entry.token.sessionId := by
  subst hkey
  exact hP

/-- A lookup under `key` finds nothing or an entry stored under that key. -/
theorem lookup_spec {k : Option RequestEntry → Task α} {e : Multiset Tok}
    (hnone : ∃ e', Looks key none e e' ∧ (∀ x ∈ e', x.Within t P) ∧
      Keeps cfg m t P Q (k none) (e' + F))
    (hsome : ∀ entry, entry.key = key → ∃ e', Looks key (some entry) e e' ∧
      (∀ x ∈ e', x.Within t P) ∧ Keeps cfg m t P Q (k (some entry)) (e' + F)) :
    Keeps cfg m t P Q (.act (.entriesGet key) k) (e + F) := by
  refine keeps_act fun found ↦ ?_
  cases found with
  | none =>
    obtain ⟨e', hl, hok, hk⟩ := hnone
    exact .inr ⟨e, e', F, rfl, .get hl, hok, hk⟩
  | some entry =>
    by_cases hkey : entry.key = key
    · obtain ⟨e', hl, hok, hk⟩ := hsome entry hkey
      exact .inr ⟨e, e', F, rfl, .get hl, hok, hk⟩
    · exact .inl (.misplaced hkey)

/-- The same from no tokens in particular. -/
theorem lookup_free {k : Option RequestEntry → Task α} (hnone : Keeps cfg m t P Q (k none) F)
    (hsome : ∀ entry, entry.key = key → Keeps cfg m t P Q (k (some entry)) F) :
    Keeps cfg m t P Q (.act (.entriesGet key) k) F := by
  rw [← zero_add F] at hnone hsome ⊢
  exact lookup_spec ⟨0, .known, by simp, hnone⟩
    fun entry hkey ↦ ⟨0, .known, by simp, hsome entry hkey⟩

/-- A compare-and-exchange, with what its winner and its losers go on with. -/
theorem transition_spec {caller : Caller} {source target : RequestState} {e lost gained : Multiset Tok}
    {k : Except RequestState Unit → Task α} (hP : P tok.sessionId) (hfits : caller.Fits tok)
    (hends : Ends m t tok caller source target e gained)
    (hgained : ∀ x ∈ gained, x.Within t P) (hlost : ∀ x ∈ lost, x.Within t P)
    (hloses : Loses tok caller source e lost)
    (hok : Keeps cfg m t P Q (k (.ok ()))
      ({.won t caller tok} + (owedFor caller target + (gained + F))))
    (herr : ∀ state, Keeps cfg m t P Q (k (.error state)) (lost + F)) :
    Keeps cfg m t P Q (.act (.tryTransition caller tok source target) k) (e + F) := by
  refine keeps_move fun r ↦ ?_
  cases r with
  | ok u =>
    refine ⟨_, .win hends hfits, ?_, ?_⟩
    · intro x hx
      simp only [Multiset.mem_add, Multiset.mem_singleton] at hx
      obtain (rfl | hx) | hx := hx
      · exact ⟨rfl, hP⟩
      · exact within_owedFor caller target x hx
      · exact hgained x hx
    · simpa only [add_assoc] using hok
  | error state => exact ⟨lost, .lose hloses, hlost, herr state⟩

/-- A registration that met a closing session is ended by its own undo or by someone else. -/
theorem undoRegistration_spec {rt : Nat} {indexed : Bool} {k : Unit → Task α}
    (hP : P key.sessionId) (hkey : tok.key = key) (h : Keeps cfg m t P Q (k ()) F) :
    Keeps cfg m t P Q (undoRegistration key >>= k) ({.entering tok rt indexed} + F) := by
  have howed : owedFor .undo .sessionClosed = 0 := by decide
  simp only [undoRegistration, Prog.perform_bind, Prog.act_bind]
  refine lookup_spec ⟨0, .notEntering hkey (by simp), by simp, ?_⟩ fun entry hentry ↦ ?_
  · rw [zero_add]
    exact dropWaiter_free hP h
  have hP' := session_key hP hentry
  have hentry' : entry.token.key = key := by rwa [RequestEntry.key_token]
  -- Whoever ends the registration found takes it out and drops the waiter.
  have hwon : Keeps cfg m t P Q (.act .pendingFetchSub fun _ ↦
      removeTerminalEntry .undo key >>= fun _ ↦ dropWaiter key >>= k)
      ({.won t .undo entry.token} + F) :=
    retire_spec hP' hentry' (dropWaiter_spec hP h)
  by_cases heq : entry.token = tok
  · subst heq
    refine ⟨{Tok.entering entry.token rt indexed}, .known, forall_mem_singleton hP', ?_⟩
    simp only [Prog.act_bind]
    refine transition_spec hP' trivial .undo (by simp) (by simp) .undo ?_ fun state ↦ ?_
    · rw [howed, zero_add, zero_add]
      simpa only [Prog.act_bind, bind_assoc] using hwon
    · rw [zero_add]
      exact dropWaiter_free hP h
  · refine ⟨0, .notEntering hkey (by simpa using heq), by simp, ?_⟩
    simp only [Prog.act_bind]
    refine transition_spec hP' trivial (.abort (by decide) (by decide) rfl (by decide)) (by simp)
      (by simp) .known ?_ fun state ↦ ?_
    · rw [howed, zero_add, zero_add]
      simpa only [Prog.act_bind, bind_assoc] using hwon
    · rw [zero_add]
      exact dropWaiter_free hP h

/-- The tokens left over when a registration is refused: none of them is a debt. -/
def Idle (G : Multiset Tok) : Prop := ∀ x ∈ G, x.idle

/-- A call keeps this token when a registration is refused: a look at the session, an id or a
registration of its own. -/
def Tok.spare : Tok → Prop
  | .sees .. | .id .. | .minted _ => True
  | _ => False

/-- What exactly is left over then. -/
def Spare (G : Multiset Tok) : Prop := ∀ x ∈ G, x.spare

theorem Spare.idle {G : Multiset Tok} (hG : Spare G) : Idle G := by
  intro x hx
  have hspare := hG x hx
  cases x with
  | sees | id | minted => trivial
  | _ => cases hspare

private theorem idle_zero : Idle 0 := by simp [Idle]

private theorem spare_zero : Spare 0 := by simp [Spare]

private theorem spare_sees {sid : SessionId} {rt : Nat} : Spare {.sees sid rt} := by
  simp [Spare, Tok.spare]

private theorem spare_idFor : Spare (idFor m key) := by
  unfold idFor
  repeat' split
  all_goals simp [Spare, Tok.spare]

private theorem Idle.add {G H : Multiset Tok} (hG : Idle G) (hH : Idle H) : Idle (G + H) := by
  intro x hx
  obtain hx | hx := Multiset.mem_add.mp hx
  · exact hG x hx
  · exact hH x hx

private theorem Spare.add {G H : Multiset Tok} (hG : Spare G) (hH : Spare H) : Spare (G + H) := by
  intro x hx
  obtain hx | hx := Multiset.mem_add.mp hx
  · exact hG x hx
  · exact hH x hx

theorem resolveRuntime_spec {k : Option (Option Nat) → Task α} (hP : P key.sessionId)
    (hrefused : ∀ G, Spare G → Keeps cfg m t P Q (k none) (G + F))
    (hfree : key.sessionId = none → Keeps cfg m t P Q (k (some none)) F)
    (hopen : ∀ sid rt, key.sessionId = some sid →
      Keeps cfg m t P Q (k (some (some rt))) ({.sees sid rt} + F)) :
    Keeps cfg m t P Q (resolveRuntime key >>= k) F := by
  unfold resolveRuntime
  split
  next hsid => exact hfree hsid
  next sid hsid =>
    simp only [Prog.perform_bind, Prog.act_bind]
    refine keeps_gain fun runtime ↦ ?_
    cases runtime with
    | none => exact ⟨0, .sessionLooked, by simp, hrefused 0 spare_zero⟩
    | some rt =>
      refine ⟨_, .sessionSeen, forall_mem_singleton (show P (some sid) from hsid ▸ hP), ?_⟩
      simp only [Prog.act_bind]
      refine keeps_neutral (fun _ ↦ .isOpen) fun isOpen ↦ ?_
      cases isOpen with
      | false => exact hrefused _ spare_sees
      | true => exact hopen sid rt hsid

theorem acceptRegistration_spec {entry : RequestEntry} {schedule : Bool}
    {k : Option RequestToken → Task α} (h : Keeps cfg m t P Q (k (some entry.token)) F) :
    Keeps cfg m t P Q (acceptRegistration cfg entry schedule >>= k) F := by
  unfold acceptRegistration
  split
  · rw [bind_assoc]
    exact scheduleForDeadline_spec h
  · exact h

theorem indexRegistration_spec {entry : RequestEntry} {schedule : Bool} {rt : Nat}
    {k : Option RequestToken → Task α} (hP : P entry.key.sessionId)
    (hrefused : Keeps cfg m t P Q (k none) F)
    (haccepted : Keeps cfg m t P Q (k (some entry.token)) ({.minted entry.token} + F)) :
    Keeps cfg m t P Q (indexRegistration cfg entry schedule (some rt) >>= k)
      ({.entering entry.token rt false} + F) := by
  have hP' : P entry.token.sessionId := hP
  simp only [indexRegistration, Prog.perform_bind, Prog.act_bind]
  refine keeps_move fun _ ↦ ⟨_, .index, forall_mem_singleton hP', ?_⟩
  refine keeps_move fun isOpen ↦ ?_
  cases isOpen with
  | true =>
    refine ⟨_, .accept, forall_mem_singleton hP', ?_⟩
    exact acceptRegistration_spec haccepted
  | false =>
    refine ⟨_, .isOpen, forall_mem_singleton hP', ?_⟩
    simp only [Bool.false_eq_true, if_false, bind_assoc]
    exact undoRegistration_spec hP entry.key_token hrefused

-- The insertion into the map, with `S` the tokens the lookup of the session left.
private theorem insert_spec {entry : RequestEntry} {S e' : Multiset Tok} {k : Bool → Task α}
    (hmove : Moves cfg m t (.entriesInsert entry) true
      ({.fresh entry.generation} + ({.added} + (S + idFor m entry.key))) e')
    (hok : ∀ x ∈ e', x.Within t P) (haccepted : Keeps cfg m t P Q (k true) (e' + F))
    (hrefused : Keeps cfg m t P Q (k false) ({.added} + (S + idFor m entry.key + F))) :
    Keeps cfg m t P Q (.act (.entriesInsert entry) k)
      ({.added} + ({.fresh entry.generation} + (S + (idFor m entry.key + F)))) := by
  refine keeps_act fun vacant ↦ .inr ?_
  cases vacant with
  | true =>
    refine ⟨_, e', F, ?_, hmove, hok, haccepted⟩
    abel
  | false =>
    refine ⟨_, 0, {.added} + (S + idFor m entry.key + F), ?_, .insertRefused, by simp, ?_⟩
    · abel
    · rwa [zero_add]

/-- A registration is refused, and what is left over is spare, or it is accepted. -/
theorem registerImpl_leaves {bizType : UInt8} {timeout : Duration} {schedule : Bool}
    {k : Option RequestToken → Task α} (hP : P key.sessionId)
    (hbound : m.bound = true → key.sessionId = none → key.direction = .inbound)
    (hrefused : ∀ G, Spare G → Keeps cfg m t P Q (k none) (G + F))
    (haccepted : ∀ token, token.key = key →
      Keeps cfg m t P Q (k (some token)) ({.minted token} + F)) :
    Keeps cfg m t P Q (registerImpl cfg key bizType timeout schedule >>= k) (idFor m key + F) := by
  have hoccupied : ∀ S, Spare S → Keeps cfg m t P Q (.act .pendingFetchSub fun _ ↦ k none)
      ({.added} + (S + idFor m key + F)) := by
    intro S hS
    refine keeps_move fun _ ↦ ⟨0, .pendingSubRefused, by simp, ?_⟩
    rw [zero_add]
    exact hrefused _ (hS.add spare_idFor)
  simp only [registerImpl, bind_assoc]
  refine resolveRuntime_spec hP (fun G hG ↦ ?_) (fun hsid ↦ ?_) fun sid rt hsid ↦ ?_
  · rw [← add_assoc]
    exact hrefused _ (hG.add spare_idFor)
  · simp only [Prog.perform_bind, Prog.act_bind]
    refine keeps_neutral (fun _ ↦ .now) fun now ↦ ?_
    refine keeps_gain fun g ↦ ⟨_, .nextGeneration, forall_mem_singleton trivial, ?_⟩
    refine keeps_gain fun _ ↦ ⟨_, .pendingAdd, forall_mem_singleton trivial, ?_⟩
    rw [← zero_add (idFor m key + F)]
    refine insert_spec (.insertFree hsid fun hb ↦ hbound hb hsid) ?_ ?_ (hoccupied 0 spare_zero)
    · exact forall_mem_singleton hP
    · exact acceptRegistration_spec (haccepted _ (RequestEntry.key_token _))
  · simp only [Prog.perform_bind, Prog.act_bind]
    refine keeps_neutral (fun _ ↦ .now) fun now ↦ ?_
    refine keeps_gain fun g ↦ ⟨_, .nextGeneration, forall_mem_singleton trivial, ?_⟩
    refine keeps_gain fun _ ↦ ⟨_, .pendingAdd, forall_mem_singleton trivial, ?_⟩
    refine insert_spec (.insertSession hsid) ?_ ?_ (hoccupied _ spare_sees)
    · exact forall_mem_singleton hP
    · refine indexRegistration_spec hP ?_ (haccepted _ (RequestEntry.key_token _))
      have h0 := hrefused 0 spare_zero
      rwa [zero_add] at h0

/-- A registration is refused, with nothing owed, or accepted. -/
theorem registerImpl_spec {bizType : UInt8} {timeout : Duration} {schedule : Bool}
    {k : Option RequestToken → Task α} (hP : P key.sessionId)
    (hbound : m.bound = true → key.sessionId = none → key.direction = .inbound)
    (hrefused : ∀ G, Idle G → Keeps cfg m t P Q (k none) (G + F))
    (haccepted : ∀ token, token.key = key →
      Keeps cfg m t P Q (k (some token)) ({.minted token} + F)) :
    Keeps cfg m t P Q (registerImpl cfg key bizType timeout schedule >>= k) (idFor m key + F) :=
  registerImpl_leaves hP hbound (fun G hG ↦ hrefused G hG.idle) haccepted

private theorem minted_split (token : RequestToken) :
    ∃ R, ({.minted token} : Multiset Tok) = mintFor m token + R := by
  unfold mintFor
  split
  · exact ⟨0, (add_zero _).symm⟩
  · exact ⟨_, (zero_add _).symm⟩

/-- With an entry under the key, the look at the waiters is settled. -/
private theorem looks_waiterFor {entry : RequestEntry} :
    Looks key (some entry) (waiterFor m key) 0 := by
  unfold waiterFor
  split
  · exact .waiterSafe
  · exact .known

theorem confirmWaiter_spec {k : Except DuplicateRequest (Nat × RequestToken) → Task α}
    (hP : P key.sessionId) (hrefused : ∀ e, Keeps cfg m t P Q (k (.error e)) F)
    (haccepted : Keeps cfg m t P Q (k (.ok (tok.generation, tok))) F) :
    Keeps cfg m t P Q (confirmWaiter key tok >>= k) (waiterFor m key + F) := by
  simp only [confirmWaiter, Prog.perform_bind, Prog.act_bind]
  refine lookup_spec ⟨_, .known, within_waiterFor hP, ?_⟩
    fun entry _ ↦ ⟨0, looks_waiterFor, by simp, ?_⟩
  · simp only [bind_assoc]
    exact dropWaiter_spec hP (hrefused _)
  · rw [zero_add]
    exact haccepted

theorem attachWaiter_spec {k : Except DuplicateRequest (Nat × RequestToken) → Task α}
    (hP : P key.sessionId) (hkey : tok.key = key) (hdir : key.direction = .outbound)
    (hrefused : ∀ e, Keeps cfg m t P Q (k (.error e)) ({.minted tok} + F))
    (haccepted : Keeps cfg m t P Q (k (.ok (tok.generation, tok))) ({.minted tok} + F)) :
    Keeps cfg m t P Q (attachWaiter key tok >>= k) ({.minted tok} + F) := by
  subst hkey
  obtain ⟨R, hR⟩ := minted_split (m := m) tok
  have hmint : ∀ x ∈ mintFor m tok, x.Within t P := by
    rw [RequestToken.sessionId_key] at hP
    unfold mintFor
    split
    · exact forall_mem_singleton hP
    · exact forall_mem_zero
  simp only [attachWaiter, Prog.perform_bind, Prog.act_bind]
  rw [hR, add_assoc]
  rw [RequestToken.direction_key] at hdir
  refine keeps_move fun replaced ↦ ⟨_, .waitersInsert hdir, ?_, ?_⟩
  · intro x hx
    simp only [Multiset.mem_add] at hx
    obtain (hx | hx) | hx := hx
    · exact hmint x hx
    · exact within_waiterFor hP x hx
    · exact within_senderFor hP replaced x hx
  · have hd : mintFor m tok + waiterFor m tok.key + senderFor m tok.key replaced + (R + F) =
        senderFor m tok.key replaced + (waiterFor m tok.key + ({.minted tok} + F)) := by
      rw [hR]
      abel
    rw [hd]
    cases replaced with
    | none =>
      rw [show senderFor m tok.key none = 0 from rfl, zero_add]
      exact confirmWaiter_spec hP hrefused haccepted
    | some channel =>
      simp only [Prog.act_bind]
      refine keeps_move fun _ ↦ ⟨0, .drop, by simp, ?_⟩
      rw [zero_add]
      exact confirmWaiter_spec hP hrefused haccepted

/-- `try_register_waiter` refuses, and what is left over is spare, or accepts. -/
theorem tryRegisterWaiter_leaves {sid : Option SessionId} {id : UInt32} {bizType : UInt8}
    {timeout : Duration} {k : Except DuplicateRequest (Nat × RequestToken) → Task α} (hP : P sid)
    (hbound : m.bound = true → sid ≠ none)
    (hrefused : ∀ e G, Spare G → Keeps cfg m t P Q (k (.error e)) (G + F))
    (haccepted : ∀ token, token.key = .outbound sid id →
      Keeps cfg m t P Q (k (.ok (token.generation, token))) ({.minted token} + F)) :
    Keeps cfg m t P Q (tryRegisterWaiter cfg id sid bizType timeout >>= k)
      (idFor m (.outbound sid id) + F) := by
  simp only [tryRegisterWaiter, bind_assoc]
  refine registerImpl_leaves hP (fun hb hsid ↦ absurd hsid (hbound hb)) (fun G hG ↦ hrefused _ G hG)
    fun token hkey ↦ ?_
  refine attachWaiter_spec hP hkey rfl (fun e ↦ hrefused e _ ?_) (haccepted token hkey)
  simp [Spare, Tok.spare]

/-- `try_register_waiter` refuses with nothing owed, or accepts. -/
theorem tryRegisterWaiter_spec {sid : Option SessionId} {id : UInt32} {bizType : UInt8}
    {timeout : Duration} {k : Except DuplicateRequest (Nat × RequestToken) → Task α} (hP : P sid)
    (hbound : m.bound = true → sid ≠ none)
    (hrefused : ∀ e G, Idle G → Keeps cfg m t P Q (k (.error e)) (G + F))
    (haccepted : ∀ token, token.key = .outbound sid id →
      Keeps cfg m t P Q (k (.ok (token.generation, token))) ({.minted token} + F)) :
    Keeps cfg m t P Q (tryRegisterWaiter cfg id sid bizType timeout >>= k)
      (idFor m (.outbound sid id) + F) :=
  tryRegisterWaiter_leaves hP hbound (fun e G hG ↦ hrefused e G hG.idle) haccepted

/-- A response is refused, or completes one pending request and uses its packet up. -/
theorem completeWaiter_spec {sid : Option SessionId} {id : UInt32} {packet : Packet}
    {k : Bool → Task α} (hP : P sid)
    (hrefused : Keeps cfg m t P Q (k false) (responseFor m t sid id packet false + F))
    (hcompleted : Keeps cfg m t P Q (k true) (responseFor m t sid id packet true + F)) :
    Keeps cfg m t P Q (completeWaiter sid id packet >>= k)
      (responseFor m t sid id packet false + F) := by
  have hresponse : ∀ used, ∀ x ∈ responseFor m t sid id packet used, x.Within t P := by
    intro used
    unfold responseFor
    split
    · exact forall_mem_singleton ⟨rfl, hP⟩
    · exact forall_mem_zero
  have howed : owedFor .key .responded = 0 := by decide
  simp only [completeWaiter, markRespondedKey, bind_assoc, Prog.perform_bind, Prog.act_bind]
  refine lookup_free ?_ fun entry hentry ↦ ?_
  · simp only [Prog.act_bind, Prog.pure_eq, Prog.ret_bind]
    exact keeps_neutral (fun _ ↦ .duplicate) fun _ ↦ hrefused
  have hsid : entry.token.sessionId = sid := by
    rw [RequestEntry.token, hentry]
    rfl
  have hid : entry.token.requestId = id := by
    rw [RequestEntry.token, hentry]
    rfl
  have hends : Ends m t entry.token .key .pending .responded
      (responseFor m t entry.token.sessionId entry.token.requestId packet false)
      (responseFor m t entry.token.sessionId entry.token.requestId packet true) := by
    refine .complete ?_
    rw [RequestEntry.token, hentry]
    rfl
  rw [hsid, hid] at hends
  simp only [Prog.act_bind]
  refine transition_spec (by rwa [hsid]) trivial hends (hresponse true) (hresponse false) .known
    ?_ fun state ↦ ?_
  · rw [howed, zero_add]
    simp only [Prog.act_bind, bind_assoc]
    refine retire_spec (by rwa [hsid]) (by rwa [RequestEntry.key_token]) ?_
    simp only [Prog.pure_eq, Prog.ret_bind, Prog.act_bind]
    refine keeps_move fun sender ↦ ⟨senderFor m (.outbound sid id) sender, ?_,
      within_senderFor hP sender, ?_⟩
    · unfold waiterFor
      split
      · exact .waitersSettle
      · exact .waitersRemove
    · cases sender with
      | none =>
        rw [show senderFor m (.outbound sid id) none = 0 from rfl, zero_add]
        exact hcompleted
      | some channel =>
        simp only [Prog.act_bind]
        rw [← add_assoc]
        exact keeps_move fun _ ↦ ⟨_, .send, hresponse true, hcompleted⟩
  · by_cases hstate : state = .responded
    · simp only [hstate, if_true, Prog.act_bind, Prog.pure_eq, Prog.ret_bind]
      exact keeps_neutral (fun _ ↦ .duplicate) fun _ ↦ hrefused
    · simp only [hstate, if_false, Prog.pure_eq, Prog.ret_bind]
      exact hrefused

/-- A transition out of `Pending` that gives no token up. -/
theorem abort_transition {caller : Caller} {target : RequestState}
    {k : Except RequestState Unit → Task α} (hP : P tok.sessionId) (hfits : caller.Fits tok)
    (hcaller : caller ≠ .drain) (hresponded : target ≠ .responded)
    (hterminal : target.terminal = true) (hfailed : target ≠ .sendFailed)
    (hok : Keeps cfg m t P Q (k (.ok ())) ({.won t caller tok} + (owedFor caller target + F)))
    (herr : ∀ state, Keeps cfg m t P Q (k (.error state)) F) :
    Keeps cfg m t P Q (.act (.tryTransition caller tok .pending target) k) F := by
  rw [← zero_add F]
  refine transition_spec hP hfits (.abort hcaller hresponded hterminal hfailed) (by simp) (by simp)
    .known ?_ fun state ↦ ?_
  · rwa [zero_add]
  · rw [zero_add]
    exact herr state

theorem markDroppedKey_spec {k : MarkResult → Task α} (hP : P key.sessionId)
    (hdropped : Keeps cfg m t P Q (k .updated) (waiterFor m key + F))
    (hother : ∀ r, r ≠ .updated → Keeps cfg m t P Q (k r) F) :
    Keeps cfg m t P Q (markDroppedKey key >>= k) F := by
  have howed : owedFor .key .dropped = 0 := by decide
  simp only [markDroppedKey, Prog.perform_bind, Prog.act_bind]
  refine lookup_free (hother _ (by simp)) fun entry hentry ↦ ?_
  simp only [Prog.act_bind]
  refine abort_transition (session_key hP hentry) trivial (by decide) (by decide) rfl (by decide) ?_
    fun state ↦ hother _ (by simp)
  rw [howed, zero_add]
  simp only [Prog.act_bind, bind_assoc]
  exact retire_spec (session_key hP hentry) (by rwa [RequestEntry.key_token]) hdropped

theorem abortWaiter_spec {sid : Option SessionId} {id : UInt32} {k : Bool → Task α} (hP : P sid)
    (h : ∀ b, Keeps cfg m t P Q (k b) F) :
    Keeps cfg m t P Q (abortWaiter sid id >>= k) F := by
  simp only [abortWaiter, bind_assoc]
  refine markDroppedKey_spec hP ?_ fun r _ ↦ ?_
  · exact dropWaiter_spec hP (h _)
  · exact dropWaiter_free hP (h _)

theorem markTimedOut_spec {k : MarkResult → Task α} (hP : P key.sessionId)
    (h : ∀ r, Keeps cfg m t P Q (k r) F) : Keeps cfg m t P Q (markTimedOut key >>= k) F := by
  have howed : owedFor .key .timedOut = {.owes .requestTimeout} := by decide
  simp only [markTimedOut, Prog.perform_bind, Prog.act_bind]
  refine lookup_free (h _) fun entry hentry ↦ ?_
  have hP' := session_key hP hentry
  simp only [Prog.act_bind]
  refine abort_transition hP' trivial (by decide) (by decide) rfl (by decide) ?_ fun state ↦ h _
  rw [howed]
  simp only [Prog.act_bind, bind_assoc]
  refine keeps_move fun _ ↦ ⟨_, .pendingSubWon, forall_mem_singleton ⟨rfl, hP'⟩, ?_⟩
  rw [add_left_comm]
  refine keeps_move fun _ ↦ ⟨0, .counter (n := 1) (by decide), by simp, ?_⟩
  rw [zero_add]
  refine removeTerminalEntry_spec hP' (by rwa [RequestEntry.key_token]) ?_
  exact dropWaiter_spec hP (h _)

private theorem token_of_generation {entry : RequestEntry} (hkey : entry.key = tok.key)
    (hg : entry.generation = tok.generation) : entry.token = tok :=
  RequestToken.ext_key (by rwa [RequestEntry.key_token]) hg

theorem abortRequestToken_spec {k : Bool → Task α} (hP : P tok.sessionId)
    (h : ∀ b, Keeps cfg m t P Q (k b) F) :
    Keeps cfg m t P Q (abortRequestToken tok >>= k) F := by
  have howed : owedFor (.token tok) .dropped = 0 := by simp [owedFor]
  have hP' : P tok.key.sessionId := by rwa [RequestToken.sessionId_key]
  simp only [abortRequestToken, Prog.perform_bind, Prog.act_bind]
  refine lookup_free (h _) fun entry hentry ↦ ?_
  by_cases hg : entry.generation = tok.generation
  · obtain rfl := token_of_generation hentry hg
    simp only [hg, ne_eq, not_true_eq_false, if_false, Prog.act_bind]
    refine abort_transition hP rfl (by simp) (by decide) rfl (by decide) ?_ fun state ↦ h _
    rw [howed, zero_add]
    simp only [Prog.act_bind, bind_assoc]
    exact retire_spec hP rfl (dropWaiter_spec hP' (h _))
  · simp only [ne_eq, hg, not_false_eq_true, if_true]
    exact h _

theorem beginRespond_spec {k : MarkResult → Task α} (hP : P tok.sessionId)
    (hclaimed : Keeps cfg m t P Q (k .updated) ({.claim tok} + (mintFor m tok + F)))
    (hother : ∀ r, r ≠ .updated → Keeps cfg m t P Q (k r) (mintFor m tok + F)) :
    Keeps cfg m t P Q (beginRespond tok >>= k) (mintFor m tok + F) := by
  have hmint : ∀ x ∈ mintFor m tok, x.Within t P := by
    unfold mintFor
    split
    · exact forall_mem_singleton hP
    · exact forall_mem_zero
  simp only [beginRespond, Prog.perform_bind, Prog.act_bind]
  refine lookup_free ?_ fun entry hentry ↦ ?_
  · simp only [Prog.act_bind]
    exact keeps_neutral (fun _ ↦ .duplicate) fun _ ↦ hother _ (by simp)
  by_cases hg : entry.generation = tok.generation
  · obtain rfl := token_of_generation hentry hg
    simp only [hg, ne_eq, not_true_eq_false, if_false, Prog.act_bind]
    refine keeps_move fun won ↦ ?_
    cases won with
    | ok u =>
      refine ⟨_, .claim, ?_, ?_⟩
      · intro x hx
        obtain hx | hx := Multiset.mem_add.mp hx
        · exact hmint x hx
        · rw [Multiset.mem_singleton.mp hx]
          exact hP
      · rw [add_comm (mintFor m _), add_assoc]
        exact hclaimed
    | error state =>
      refine ⟨_, .lose .known, hmint, ?_⟩
      by_cases hstate : state = .responded ∨ state = .responding
      · simp only [hstate, if_true, Prog.act_bind]
        exact keeps_neutral (fun _ ↦ .duplicate) fun _ ↦ hother _ (by simp)
      · simp only [hstate, if_false]
        exact hother _ (by simp)
  · simp only [ne_eq, hg, not_false_eq_true, if_true, Prog.act_bind]
    exact keeps_neutral (fun _ ↦ .duplicate) fun _ ↦ hother _ (by simp)

private theorem looks_claimFor {found : Option RequestEntry} (h : ∀ e ∈ found, e.token ≠ tok) :
    Looks tok.key found (claimFor m tok) 0 := by
  unfold claimFor
  split
  · exact .notResponding rfl h
  · exact .known

private theorem loses_claimFor : Loses tok (.token tok) .responding (claimFor m tok) 0 := by
  unfold claimFor
  split
  · exact .finish
  · exact .known

/-- Resolving a claim of an inbound request leaves nothing owed. -/
theorem finishRespond_spec {writeConfirmed : Bool} {k : MarkResult → Task α}
    (hP : P tok.sessionId) (hin : m.strict = true → tok.direction = .inbound)
    (h : ∀ r, Keeps cfg m t P Q (k r) F) :
    Keeps cfg m t P Q (finishRespond tok writeConfirmed >>= k) (claimFor m tok + F) := by
  have hclaim : ∀ x ∈ claimFor m tok, x.Within t P := by
    unfold claimFor
    split
    · exact forall_mem_singleton hP
    · exact forall_mem_zero
  have hwaiter : waiterFor m tok.key = 0 := by
    unfold waiterFor
    rw [if_neg]
    rintro ⟨hs, hd⟩
    rw [RequestToken.direction_key, hin hs] at hd
    cases hd
  have hremoved : Keeps cfg m t P Q (removeTerminalEntry (.token tok) tok.key >>= fun _ ↦
      k .updated) ({.subbed t (.token tok) tok} + F) := by
    refine removeTerminalEntry_spec hP rfl ?_
    rw [hwaiter, zero_add]
    exact h _
  simp only [finishRespond, Prog.perform_bind, Prog.act_bind]
  refine lookup_spec ⟨0, looks_claimFor (by simp), by simp, ?_⟩ fun entry hentry ↦ ?_
  · rw [zero_add]
    exact h _
  by_cases hg : entry.generation = tok.generation
  · obtain rfl := token_of_generation hentry hg
    refine ⟨_, .known, hclaim, ?_⟩
    simp only [hg, ne_eq, not_true_eq_false, if_false, Prog.act_bind]
    refine transition_spec hP rfl .finish (by simp) (by simp) loses_claimFor ?_ fun state ↦ ?_
    · rw [zero_add]
      simp only [Prog.act_bind]
      refine keeps_move fun _ ↦ ⟨_, .pendingSubWon, forall_mem_singleton ⟨rfl, hP⟩, ?_⟩
      cases writeConfirmed with
      | true =>
        rw [show owedFor (.token entry.token) (respondTarget true) = 0 by
          simp [owedFor, respondTarget], zero_add]
        simpa only [if_true, Prog.pure_eq, Prog.ret_bind, bind_assoc] using hremoved
      | false =>
        rw [show owedFor (.token entry.token) (respondTarget false) = {.owes .responseSendFailed} by
          simp [owedFor, respondTarget], add_left_comm]
        simp only [Bool.false_eq_true, if_false, Prog.act_bind, bind_assoc]
        refine keeps_move fun _ ↦ ⟨0, .counter (n := 1) (by decide), by simp, ?_⟩
        rw [zero_add]
        exact hremoved
    · rw [zero_add]
      exact h _
  · refine ⟨0, looks_claimFor ?_, by simp, ?_⟩
    · rintro e he rfl
      rw [Option.mem_some.mp he] at hg
      exact hg rfl
    · rw [zero_add]
      simp only [ne_eq, hg, not_false_eq_true, if_true]
      exact h _

private theorem replicate_succ' (n : Nat) (x : Tok) :
    Multiset.replicate (n + 1) x = {x} + Multiset.replicate n x := by
  rw [Multiset.replicate_succ, Multiset.singleton_add]

/-- The drain ends the registration it found, or finds it ended. -/
theorem dieWithSession_spec {sid : SessionId} {rt : Nat} {k : Bool → Task α}
    (hP : P tok.sessionId) (hsid : P (some sid))
    (hdied : Keeps cfg m t P Q (k true)
      ({.won t .drain tok} + ({.owes .sessionClosedPending} + F)))
    (hended : Keeps cfg m t P Q (k false) F) :
    Keeps cfg m t P Q (dieWithSession tok >>= k) ({.killing sid rt tok false} + F) := by
  have howed : owedFor .drain .sessionClosed = {.owes .sessionClosedPending} := by decide
  have hkilling : ∀ x ∈ ({Tok.killing sid rt tok true} : Multiset Tok), x.Within t P :=
    forall_mem_singleton hsid
  simp only [dieWithSession, Prog.perform_bind, Prog.act_bind]
  refine transition_spec hP trivial (.drain rfl) (by simp) hkilling .drainPending ?_
    fun state ↦ ?_
  · rw [howed, zero_add]
    exact hdied
  · simp only [Prog.act_bind]
    refine transition_spec hP trivial (.drain rfl) (by simp) (by simp) .drainResponding ?_
      fun state ↦ ?_
    · rw [howed, zero_add]
      exact hdied
    · rw [zero_add]
      exact hended

/-- The drain of one shard visits all of its keys and owes one count for each one it ended. -/
theorem drainKeys_spec {sid : SessionId} {rt n : Nat} {keys : List RequestKey} {closed : Nat}
    {k : Nat → Task α} (hsid : P (some sid)) (hkeys : ∀ key ∈ keys, key.sessionId = some sid)
    (h : ∀ closed, Keeps cfg m t P Q (k closed) ({Tok.draining sid rt [] n} +
      (Multiset.replicate closed (Tok.owes .sessionClosedPending) + F))) :
    Keeps cfg m t P Q (drainKeys keys closed >>= k) ({Tok.draining sid rt keys n} +
      (Multiset.replicate closed (Tok.owes .sessionClosedPending) + F)) := by
  induction keys generalizing closed with
  | nil => exact h closed
  | cons key keys ih =>
    have hkey := hkeys key (by simp)
    have hrest : ∀ c, Keeps cfg m t P Q (drainKeys keys c >>= k) ({Tok.draining sid rt keys n} +
        (Multiset.replicate c (Tok.owes .sessionClosedPending) + F)) :=
      fun c ↦ ih fun key' hk ↦ hkeys key' (by simp [hk])
    have hdraining : ∀ x ∈ ({Tok.draining sid rt keys n} : Multiset Tok), x.Within t P :=
      forall_mem_singleton hsid
    simp only [drainKeys, Prog.perform_bind, Prog.act_bind]
    refine lookup_spec ⟨_, .drainMiss, hdraining, hrest closed⟩ fun entry hentry ↦
      ⟨_, .drainHit, ?_, ?_⟩
    · exact Multiset.forall_mem_cons.mpr ⟨hsid, forall_mem_singleton hsid⟩
    have hP' : P entry.token.sessionId := session_key (by rwa [hkey]) hentry
    simp only [bind_assoc]
    rw [Multiset.insert_eq_cons, ← Multiset.singleton_add, add_comm {Tok.draining sid rt keys n},
      add_assoc]
    refine dieWithSession_spec hP' hsid ?_ (hrest closed)
    simp only [if_true, Prog.act_bind]
    refine keeps_move fun _ ↦ ⟨_, .pendingSubWon, forall_mem_singleton ⟨rfl, hP'⟩, ?_⟩
    simp only [bind_assoc]
    rw [← hentry, ← RequestEntry.key_token]
    have hP'' : P entry.token.key.sessionId := by rwa [RequestToken.sessionId_key]
    refine keeps_move fun _ ↦ ⟨_, .remove, within_waiterFor hP'', ?_⟩
    refine dropWaiter_spec hP'' ?_
    have hd : {Tok.owes .sessionClosedPending} + ({Tok.draining sid rt keys n} +
        (Multiset.replicate closed (Tok.owes .sessionClosedPending) + F)) =
        {Tok.draining sid rt keys n} +
          (Multiset.replicate (closed + 1) (Tok.owes .sessionClosedPending) + F) := by
      rw [replicate_succ']
      abel
    rw [hd]
    exact hrest (closed + 1)

/-- The drain visits every shard. -/
theorem drainShards_spec {sid : SessionId} {rt n closed : Nat} {k : Nat → Task α}
    (hsid : P (some sid))
    (h : ∀ closed, Keeps cfg m t P Q (k closed) ({Tok.draining sid rt [] 0} +
      (Multiset.replicate closed (Tok.owes .sessionClosedPending) + F))) :
    Keeps cfg m t P Q (drainShards cfg rt n closed >>= k) ({Tok.draining sid rt [] n} +
      (Multiset.replicate closed (Tok.owes .sessionClosedPending) + F)) := by
  induction n generalizing closed with
  | zero => exact h closed
  | succ n ih =>
    simp only [drainShards, Prog.perform_bind, Prog.act_bind, bind_assoc]
    refine keeps_act fun keys ↦ ?_
    by_cases hkeys : ∀ key ∈ keys, key.sessionId = some sid
    · refine .inr ⟨_, _, _, rfl, .shard, forall_mem_singleton hsid, ?_⟩
      exact drainKeys_spec hsid hkeys fun closed ↦ ih
    · push Not at hkeys
      obtain ⟨key, hmem, hne⟩ := hkeys
      exact .inl (.stray (Multiset.mem_add.mpr (.inl (Multiset.mem_singleton_self _))) hmem hne)

/-- A close leaves the session gone and nothing owed. -/
theorem closeSessionPending_spec {sid : SessionId} {k : Nat → Task α} (hsid : P (some sid))
    (h : ∀ closed, Keeps cfg m t P Q (k closed) ({.gone sid} + F)) :
    Keeps cfg m t P Q (closeSessionPending cfg sid >>= k) F := by
  simp only [closeSessionPending, Prog.perform_bind, Prog.act_bind]
  refine keeps_gain fun removed ↦ ?_
  cases removed with
  | none => exact ⟨_, .sessionGone, forall_mem_singleton hsid, h _⟩
  | some rt =>
    refine ⟨_, .sessionTaken, Multiset.forall_mem_cons.mpr ⟨hsid, forall_mem_singleton hsid⟩, ?_⟩
    simp only [Prog.act_bind]
    rw [Multiset.insert_eq_cons, ← Multiset.singleton_add, add_comm {Tok.gone sid}, add_assoc]
    refine keeps_move fun _ ↦ ⟨_, .beginClose, forall_mem_singleton hsid, ?_⟩
    simp only [bind_assoc]
    rw [← zero_add ({Tok.gone sid} + F),
      ← Multiset.replicate_zero (Tok.owes .sessionClosedPending)]
    refine drainShards_spec hsid fun closed ↦ ?_
    simp only [Prog.act_bind]
    refine keeps_move fun _ ↦ ⟨0, .clear, by simp, ?_⟩
    rw [zero_add]
    by_cases hclosed : closed > 0
    · simp only [hclosed, if_true, Prog.act_bind]
      refine keeps_move fun _ ↦ ⟨0, .counter (by decide), by simp, ?_⟩
      rw [zero_add]
      exact h _
    · simp only [hclosed, if_false]
      rw [Nat.eq_zero_of_not_pos hclosed, Multiset.replicate_zero, zero_add]
      exact h _

/-- The scan may end requests of any session. -/
theorem scanKeys_spec {now : Instant} {keys : List RequestKey} {timedOut : Nat} {k : Nat → Task α}
    (hP : ∀ sid, P sid) (h : ∀ n, Keeps cfg m t P Q (k n) F) :
    Keeps cfg m t P Q (scanKeys cfg now keys timedOut >>= k) F := by
  induction keys generalizing timedOut with
  | nil => exact h timedOut
  | cons key keys ih =>
    simp only [scanKeys, Prog.perform_bind, Prog.act_bind]
    refine lookup_free ih fun entry hentry ↦ ?_
    simp only [Prog.act_bind]
    refine keeps_neutral (fun _ ↦ .stateLoad) fun state ↦ ?_
    by_cases hstate : state = .pending
    · simp only [hstate, ne_eq, not_true_eq_false, if_false]
      by_cases hdue : entry.deadlineAt ≤ now
      · simp only [hdue, if_true, bind_assoc]
        exact markTimedOut_spec (hP _) fun r ↦ ih
      · simp only [hdue, if_false, bind_assoc]
        exact scheduleForDeadline_spec ih
    · simp only [hstate, ne_eq, not_false_eq_true, if_true]
      exact ih

theorem scanTimeoutBucket_spec {k : Nat → Task α} (hP : ∀ sid, P sid)
    (h : ∀ n, Keeps cfg m t P Q (k n) F) :
    Keeps cfg m t P Q (scanTimeoutBucket cfg >>= k) F := by
  simp only [scanTimeoutBucket, Prog.perform_bind, Prog.act_bind]
  refine keeps_neutral (fun _ ↦ .tickAdd) fun tick ↦ ?_
  refine keeps_neutral (fun _ ↦ .bucketSwap) fun drained ↦ ?_
  by_cases hempty : drained = []
  · simp only [hempty, if_true]
    exact h _
  · simp only [hempty, if_false, Prog.act_bind]
    exact keeps_neutral (fun _ ↦ .now) fun now ↦ scanKeys_spec hP h

theorem openSession_spec {sid : SessionId} {k : Unit → Task α} (h : Keeps cfg m t P Q (k ()) F) :
    Keeps cfg m t P Q (openSession sid >>= k) (openFor m sid + F) := by
  simp only [openSession, Prog.perform_bind]
  exact keeps_move fun _ ↦ ⟨0, .openSession, by simp, by rwa [zero_add]⟩

/-- An id is refused, and what is left over is spare, or it is the caller's alone. -/
theorem nextRequestId_leaves {sid : Option SessionId} {k : Option UInt32 → Task α} (hP : P sid)
    (hrefused : ∀ G, Spare G → Keeps cfg m t P Q (k none) (G + F))
    (hfree : sid = none → ∀ id, Keeps cfg m t P Q (k (some id)) F)
    (hallocated : ∀ s id, sid = some s → Keeps cfg m t P Q (k (some id)) ({.id s id} + F)) :
    Keeps cfg m t P Q (nextRequestId sid >>= k) F := by
  cases sid with
  | none =>
    simp only [nextRequestId, nextOnewayId, Prog.perform_bind, Prog.act_bind]
    exact keeps_neutral (fun _ ↦ .onewayId) fun id ↦ hfree rfl id
  | some s =>
    simp only [nextRequestId, Prog.perform_bind, Prog.act_bind]
    refine keeps_gain fun runtime ↦ ?_
    cases runtime with
    | none => exact ⟨0, .sessionLooked, by simp, hrefused 0 spare_zero⟩
    | some rt =>
      refine ⟨_, .sessionSeen, forall_mem_singleton hP, ?_⟩
      simp only [Prog.act_bind]
      refine keeps_move fun isOpen ↦ ⟨_, .isOpen, forall_mem_singleton hP, ?_⟩
      cases isOpen with
      | false => exact hrefused _ spare_sees
      | true =>
        simp only [if_true, Prog.perform_bind]
        refine keeps_act fun id ↦ .inr ?_
        cases id with
        | none =>
          refine ⟨0, 0, _, (zero_add _).symm, .idExhausted, by simp, ?_⟩
          rw [zero_add]
          exact hrefused _ spare_sees
        | some id =>
          exact ⟨_, _, F, rfl, .idAllocated, forall_mem_singleton hP, hallocated s id rfl⟩

/-- The id allocated for a session is the caller's alone. -/
theorem nextRequestId_spec {sid : Option SessionId} {k : Option UInt32 → Task α} (hP : P sid)
    (hrefused : ∀ G, Idle G → Keeps cfg m t P Q (k none) (G + F))
    (hfree : sid = none → ∀ id, Keeps cfg m t P Q (k (some id)) F)
    (hallocated : ∀ s id, sid = some s → Keeps cfg m t P Q (k (some id)) ({.id s id} + F)) :
    Keeps cfg m t P Q (nextRequestId sid >>= k) F :=
  nextRequestId_leaves hP (fun G hG ↦ hrefused G hG.idle) hfree hallocated

/-- A closed session refuses every registration. -/
theorem registerImpl_gone {sid : SessionId} {bizType : UInt8} {timeout : Duration}
    {schedule : Bool} {k : Option RequestToken → Task α} (hsid : key.sessionId = some sid)
    (hm : m.final = true) (hgone : .gone sid ∈ F) (h : Keeps cfg m t P Q (k none) F) :
    Keeps cfg m t P Q (registerImpl cfg key bizType timeout schedule >>= k) F := by
  simp only [registerImpl, resolveRuntime, hsid, bind_assoc, Prog.perform_bind, Prog.act_bind]
  refine keeps_act fun runtime ↦ ?_
  cases runtime with
  | none => exact .inr ⟨0, 0, F, (zero_add F).symm, .sessionLooked, by simp, by rwa [zero_add]⟩
  | some rt => exact .inl (.reopened hm hgone)

private theorem collectShards_spec {β : Type} (shard : Nat → Act) {n : Nat}
    {f : ∀ i, (shard i).Resp → List β} {k : List β → Task α}
    (hshard : ∀ i r, Moves cfg m t (shard i) r 0 0) (h : ∀ l, Keeps cfg m t P Q (k l) F) :
    Keeps cfg m t P Q
      (collectShards cfg (fun i ↦ .act (shard i) fun r ↦ .ret (f i r)) n >>= k) F := by
  induction n generalizing k with
  | zero => exact h []
  | succ n ih =>
    simp only [collectShards, Prog.act_bind, Prog.ret_bind, bind_assoc]
    exact keeps_neutral (hshard _) fun r ↦ ih fun l ↦ h _

/-- `abort_all` owes nothing when it returns; it closes sessions without a drain. -/
theorem abortAll_spec {k : Nat → Task α} (hm : m.strict = false) (hP : ∀ sid, P sid)
    (h : ∀ n G, Idle G → Keeps cfg m t P Q (k n) (G + F)) :
    Keeps cfg m t P Q (abortAll cfg >>= k) F := by
  have hwaiter : ∀ key, waiterFor m key = 0 := fun key ↦ by simp [waiterFor, hm]
  have habort : ∀ keys n G, Idle G → Keeps cfg m t P Q (abortKeys keys n >>= k) (G + F) := by
    intro keys
    induction keys with
    | nil => exact h
    | cons key keys ih =>
      intro n G hG
      simp only [abortKeys, bind_assoc]
      refine markDroppedKey_spec (hP _) ?_ fun r _ ↦ dropWaiter_free (hP _) (ih _ G hG)
      rw [hwaiter, zero_add]
      exact dropWaiter_free (hP _) (ih _ G hG)
  have hclose : ∀ (sids : List SessionId) G, Idle G → ∀ k' : Unit → Task α,
      (∀ G, Idle G → Keeps cfg m t P Q (k' ()) (G + F)) →
      Keeps cfg m t P Q (closeRuntimes sids >>= k') (G + F) := by
    intro sids
    induction sids with
    | nil => exact fun G hG k' hk' ↦ hk' G hG
    | cons sid sids ih =>
      intro G hG k' hk'
      simp only [closeRuntimes, Prog.perform_bind, Prog.act_bind]
      have hG' : Idle ({.gone sid} + G) := Idle.add (by simp [Idle, Tok.idle]) hG
      refine keeps_gain fun removed ↦ ?_
      cases removed with
      | none =>
        refine ⟨_, .sessionGone, forall_mem_singleton (hP _), ?_⟩
        rw [← add_assoc]
        exact ih _ hG' k' hk'
      | some rt =>
        refine ⟨_, .sessionTaken, Multiset.forall_mem_cons.mpr ⟨hP _, forall_mem_singleton (hP _)⟩, ?_⟩
        simp only [Prog.act_bind]
        rw [Multiset.insert_eq_cons, ← Multiset.singleton_add, add_comm {Tok.gone sid},
          add_assoc]
        refine keeps_move fun _ ↦ ⟨0, .abandon hm, by simp, ?_⟩
        rw [zero_add, ← add_assoc]
        exact ih _ hG' k' hk'
  simp only [abortAll, bind_assoc]
  refine collectShards_spec .sessionsShard (fun _ _ ↦ .sessionsShard) fun sids ↦ ?_
  rw [← zero_add F]
  refine hclose sids 0 idle_zero _ fun G hG ↦ ?_
  exact collectShards_spec .entriesShard (fun _ _ ↦ .entriesShard)
    fun keys ↦ habort keys 0 G hG

end

end MsgTrans.Registry
