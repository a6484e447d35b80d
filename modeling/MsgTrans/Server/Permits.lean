import MsgTrans.Server.Holders

/-!
# The server: the connection cap

The permits of `crates/msgtrans/src/transport/transport_server.rs:521–722,1250–1390` over every run:
those available and those held always add up to the cap, a session whose actor or pump runs has a
permit, and a permit comes back once both have ended.
-/

namespace MsgTrans.Server

open MsgTrans.Base

theorem Stages.get_of_set_unborn {st : Stages} {kind kind' : Child} {stage : Stage}
    (hstage : stage ≠ .unborn) (h : (st.set kind stage).get kind' = .unborn) :
    st.get kind' = .unborn := by
  rw [Stages.get_set] at h
  split at h
  next => exact absurd h hstage
  next => exact h

/-- A session's own holder, or one of its children. -/
def Holder.token : Holder → Option (Option Child × SessionId)
  | .parent sid _ => some (none, sid)
  | .child kind sid => some (some kind, sid)
  | _ => none

/-- The sessions and their children: there is one of each, and a running child has a holder that
counts on it. -/
structure Families (d : Desk) (R : Multiset Holder) : Prop where
  tokens : (R.filterMap Holder.token).Nodup
  fresh : ∀ sid st, .parent sid st ∈ R → sid < d.next
  born : ∀ kind sid, .child kind sid ∈ R → ∃ st, .parent sid st ∈ R ∧ st.get kind = .running
  ended : ∀ kind sid, d.ended kind sid = true → .child kind sid ∉ R
  unborn : ∀ kind sid st, .parent sid st ∈ R → st.get kind = .unborn → d.ended kind sid = false
  unused : ∀ kind sid, d.next ≤ sid → d.ended kind sid = false

namespace Families

variable {d : Desk} {r : Holder} {R : Multiset Holder} {sid : SessionId} {st : Stages}
  {kind : Child}

/-- Nobody else has the token of this one. -/
theorem token_ne (h : Families d (r ::ₘ R)) {t : Option Child × SessionId} (hr : r.token = some t) :
    ∀ x ∈ R, x.token ≠ some t := by
  intro x hx hxt
  have hnodup := h.tokens
  rw [Multiset.filterMap_cons_some Holder.token _ _ hr, Multiset.nodup_cons] at hnodup
  exact hnodup.1 ((Multiset.mem_filterMap Holder.token R).mpr ⟨x, hx, hxt⟩)

theorem parent_notMem (h : Families d (.parent sid st ::ₘ R)) (st' : Stages) :
    .parent sid st' ∉ R :=
  fun hmem ↦ h.token_ne rfl _ hmem rfl

theorem child_notMem (h : Families d (.child kind sid ::ₘ R)) : .child kind sid ∉ R :=
  fun hmem ↦ h.token_ne rfl _ hmem rfl

/-- The holder of a session whose child runs knows it. -/
theorem get_of_child (h : Families d R) (hparent : .parent sid st ∈ R)
    (hchild : .child kind sid ∈ R) : st.get kind = .running := by
  obtain ⟨st', hparent', hrunning⟩ := h.born kind sid hchild
  obtain ⟨F, rfl⟩ := Multiset.exists_cons_of_mem hparent
  obtain heq | hmem := Multiset.mem_cons.mp hparent'
  · cases heq
    exact hrunning
  · exact absurd hmem (h.parent_notMem st')

theorem cons (h : Families d R) (hr : r.token = none) : Families d (r ::ₘ R) where
  tokens := by
    rw [Multiset.filterMap_cons_none _ _ hr]
    exact h.tokens
  fresh sid st hmem := by
    obtain rfl | hmem := Multiset.mem_cons.mp hmem
    · cases hr
    · exact h.fresh sid st hmem
  born kind sid hmem := by
    obtain rfl | hmem := Multiset.mem_cons.mp hmem
    · cases hr
    · obtain ⟨st, hparent, hst⟩ := h.born kind sid hmem
      exact ⟨st, Multiset.mem_cons_of_mem hparent, hst⟩
  ended kind sid hended hmem := by
    obtain rfl | hmem := Multiset.mem_cons.mp hmem
    · cases hr
    · exact h.ended kind sid hended hmem
  unborn kind sid st hmem := by
    obtain rfl | hmem := Multiset.mem_cons.mp hmem
    · cases hr
    · exact h.unborn kind sid st hmem
  unused := h.unused

/-- A role on which no running child counts goes. -/
theorem drop (h : Families d (r ::ₘ R))
    (hr : ∀ sid st, r = .parent sid st → ∀ kind, .child kind sid ∉ R) : Families d R where
  tokens := Multiset.nodup_of_le (Multiset.filterMap_le_filterMap _ (Multiset.le_cons_self R r)) h.tokens
  fresh sid st hmem := h.fresh sid st (Multiset.mem_cons_of_mem hmem)
  born kind sid hmem := by
    obtain ⟨st, hparent, hst⟩ := h.born kind sid (Multiset.mem_cons_of_mem hmem)
    obtain heq | hparent := Multiset.mem_cons.mp hparent
    · exact absurd hmem (hr sid st heq.symm kind)
    · exact ⟨st, hparent, hst⟩
  ended kind sid hended hmem := h.ended kind sid hended (Multiset.mem_cons_of_mem hmem)
  unborn kind sid st hmem := h.unborn kind sid st (Multiset.mem_cons_of_mem hmem)
  unused := h.unused

theorem drop_other (h : Families d (r ::ₘ R)) (hr : r.token = none) : Families d R :=
  h.drop fun _ _ heq ↦ by rw [heq] at hr; cases hr

/-- The number of permits does not matter. -/
theorem permits (h : Families d R) (n : Nat) : Families { d with permits := n } R :=
  ⟨h.tokens, h.fresh, h.born, h.ended, h.unborn, h.unused⟩

/-- A new session. -/
theorem accept (h : Families d R) :
    Families { d with next := d.next + 1 } (.parent d.next ⟨.unborn, .unborn⟩ ::ₘ R) where
  tokens := by
    rw [Multiset.filterMap_cons_some Holder.token _ _ rfl, Multiset.nodup_cons]
    refine ⟨fun hmem ↦ ?_, h.tokens⟩
    obtain ⟨x, hx, htoken⟩ := (Multiset.mem_filterMap Holder.token _).mp hmem
    cases x with
    | parent sid st =>
      obtain rfl : sid = d.next := by simpa [Holder.token] using htoken
      exact absurd (h.fresh _ st hx) (Nat.lt_irrefl _)
    | _ => cases htoken
  fresh sid st hmem := by
    obtain heq | hmem := Multiset.mem_cons.mp hmem
    · cases heq
      exact Nat.lt_succ_self _
    · exact Nat.lt_succ_of_lt (h.fresh sid st hmem)
  born kind sid hmem := by
    obtain heq | hmem := Multiset.mem_cons.mp hmem
    · cases heq
    · obtain ⟨st, hparent, hst⟩ := h.born kind sid hmem
      exact ⟨st, Multiset.mem_cons_of_mem hparent, hst⟩
  ended kind sid hended hmem := by
    obtain heq | hmem := Multiset.mem_cons.mp hmem
    · cases heq
    · exact h.ended kind sid hended hmem
  unborn kind sid st hmem hst := by
    obtain heq | hmem := Multiset.mem_cons.mp hmem
    · cases heq
      exact h.unused kind _ le_rfl
    · exact h.unborn kind sid st hmem hst
  unused kind sid hsid := h.unused kind sid (Nat.le_of_succ_le hsid)

/-- The holder of a session learns more of its children. -/
theorem restage {st' : Stages} (h : Families d (.parent sid st ::ₘ R))
    (hrunning : ∀ kind, .child kind sid ∈ R → st'.get kind = .running)
    (hunborn : ∀ kind, st'.get kind = .unborn → st.get kind = .unborn) :
    Families d (.parent sid st' ::ₘ R) where
  tokens := by
    have htokens := h.tokens
    rw [Multiset.filterMap_cons_some Holder.token _ _ rfl] at htokens ⊢
    exact htokens
  fresh sid' st'' hmem := by
    obtain heq | hmem := Multiset.mem_cons.mp hmem
    · cases heq
      exact h.fresh sid st (Multiset.mem_cons_self _ _)
    · exact h.fresh sid' st'' (Multiset.mem_cons_of_mem hmem)
  born kind sid' hmem := by
    obtain heq | hmem := Multiset.mem_cons.mp hmem
    · cases heq
    · obtain ⟨st'', hparent, hst⟩ := h.born kind sid' (Multiset.mem_cons_of_mem hmem)
      obtain heq | hparent := Multiset.mem_cons.mp hparent
      · cases heq
        exact ⟨st', Multiset.mem_cons_self _ _, hrunning kind hmem⟩
      · exact ⟨st'', Multiset.mem_cons_of_mem hparent, hst⟩
  ended kind sid' hended hmem := by
    obtain heq | hmem := Multiset.mem_cons.mp hmem
    · cases heq
    · exact h.ended kind sid' hended (Multiset.mem_cons_of_mem hmem)
  unborn kind sid' st'' hmem hst := by
    obtain heq | hmem := Multiset.mem_cons.mp hmem
    · cases heq
      exact h.unborn kind sid st (Multiset.mem_cons_self _ _) (hunborn kind hst)
    · exact h.unborn kind sid' st'' (Multiset.mem_cons_of_mem hmem) hst
  unused := h.unused

/-- A child that was not spawned before is spawned. -/
theorem bear (h : Families d (.parent sid st ::ₘ R)) (hst : st.get kind = .running)
    (hnew : .child kind sid ∉ R) (hended : d.ended kind sid = false) :
    Families d (.child kind sid ::ₘ .parent sid st ::ₘ R) where
  tokens := by
    rw [Multiset.filterMap_cons_some Holder.token _ _ rfl, Multiset.nodup_cons]
    refine ⟨fun hmem ↦ ?_, h.tokens⟩
    obtain ⟨x, hx, htoken⟩ := (Multiset.mem_filterMap Holder.token _).mp hmem
    obtain rfl | hold := Multiset.mem_cons.mp hx
    · cases htoken
    · cases x with
      | child kind' sid' =>
        obtain ⟨rfl, rfl⟩ : kind' = kind ∧ sid' = sid := by simpa [Holder.token] using htoken
        exact hnew hold
      | _ => cases htoken
  fresh sid' st' hmem := by
    obtain heq | hmem := Multiset.mem_cons.mp hmem
    · cases heq
    · exact h.fresh sid' st' hmem
  born kind' sid' hmem := by
    obtain heq | hmem := Multiset.mem_cons.mp hmem
    · cases heq
      exact ⟨st, Multiset.mem_cons_of_mem (Multiset.mem_cons_self _ _), hst⟩
    · obtain ⟨st', hparent, hst'⟩ := h.born kind' sid' hmem
      exact ⟨st', Multiset.mem_cons_of_mem hparent, hst'⟩
  ended kind' sid' hended' hmem := by
    obtain heq | hmem := Multiset.mem_cons.mp hmem
    · cases heq
      rw [hended] at hended'
      cases hended'
    · exact h.ended kind' sid' hended' hmem
  unborn kind' sid' st' hmem := by
    obtain heq | hmem := Multiset.mem_cons.mp hmem
    · cases heq
    · exact h.unborn kind' sid' st' hmem
  unused := h.unused

/-- A child ends. -/
theorem finish (h : Families d (.child kind sid ::ₘ R)) : Families (d.finish kind sid) R := by
  obtain ⟨st, hparent, hst⟩ := h.born kind sid (Multiset.mem_cons_self _ _)
  have hfresh := h.fresh sid st hparent
  have hR := h.drop (r := .child kind sid) nofun
  refine ⟨hR.tokens, hR.fresh, hR.born, ?_, ?_, ?_⟩
  · intro kind' sid' hended hmem
    obtain ⟨rfl, rfl⟩ | hended := by simpa [Desk.finish] using hended
    · exact h.child_notMem hmem
    · exact hR.ended kind' sid' hended hmem
  · intro kind' sid' st' hmem hunborn
    have hother := hR.unborn kind' sid' st' hmem hunborn
    have hne : ¬(kind' = kind ∧ sid' = sid) := by
      rintro ⟨rfl, rfl⟩
      have hrunning := h.get_of_child (Multiset.mem_cons_of_mem hmem) (Multiset.mem_cons_self _ _)
      rw [hrunning] at hunborn
      cases hunborn
    show (decide _ || _) = false
    rw [decide_eq_false hne, hother]
    rfl
  · intro kind' sid' hsid
    have hsid : d.next ≤ sid' := hsid
    have hne : ¬(kind' = kind ∧ sid' = sid) := by
      rintro ⟨rfl, rfl⟩
      exact absurd hfresh (Nat.not_lt.mpr hsid)
    show (decide _ || _) = false
    rw [decide_eq_false hne, h.unused kind' sid' hsid]
    rfl

theorem add_others (h : Families d R) (n : Nat) : Families d (R + .replicate n .other) := by
  induction n with
  | zero => simpa using h
  | succ n ih =>
    rw [Multiset.replicate_succ, Multiset.add_cons]
    exact ih.cons rfl

/-- Every move keeps the families. -/
theorem moves {d' : Desk} {r' : Holder} {N : Multiset Holder} (h : Families d (r ::ₘ R))
    (hmove : HolderMoves d r d' r' N) : Families d' (r' ::ₘ (R + N)) := by
  cases hmove with
  | @still _ n =>
    rw [← Multiset.cons_add]
    exact h.add_others n
  | take hpermits =>
    rw [add_zero]
    exact ((h.drop_other rfl).cons rfl).permits _
  | accept =>
    rw [add_zero]
    exact (h.drop_other rfl).accept
  | @refuse sid =>
    rw [add_zero]
    refine (h.drop fun sid' st hsid kind hchild ↦ ?_).cons rfl
    cases hsid
    have hrunning := h.get_of_child (Multiset.mem_cons_self _ _) (Multiset.mem_cons_of_mem hchild)
    cases kind <;> cases hrunning
  | release =>
    rw [add_zero]
    exact ((h.drop_other rfl).cons rfl).permits _
  | @bear sid st kind hst =>
    rw [Multiset.add_comm, Multiset.singleton_add, Multiset.cons_swap]
    have hself : .parent sid st ∈ Holder.parent sid st ::ₘ R := Multiset.mem_cons_self _ _
    have hnew : .child kind sid ∉ R := by
      intro hchild
      rw [h.get_of_child hself (Multiset.mem_cons_of_mem hchild)] at hst
      cases hst
    refine (h.restage (fun kind' hchild ↦ ?_) fun kind' hunborn ↦ ?_).bear
      (by rw [Stages.get_set, if_pos rfl]) hnew (h.unborn kind sid st hself hst)
    · rw [Stages.get_set]
      split
      next => rfl
      next => exact h.get_of_child hself (Multiset.mem_cons_of_mem hchild)
    · exact Stages.get_of_set_unborn (by decide) hunborn
  | @without sid st kind hst =>
    rw [add_zero]
    have hself : .parent sid st ∈ Holder.parent sid st ::ₘ R := Multiset.mem_cons_self _ _
    refine h.restage (fun kind' hchild ↦ ?_) fun kind' ↦ Stages.get_of_set_unborn nofun
    have hrunning := h.get_of_child hself (Multiset.mem_cons_of_mem hchild)
    rw [Stages.get_set]
    split
    next heq =>
      rw [heq, hst] at hrunning
      cases hrunning
    next => exact hrunning
  | handOver =>
    rw [Multiset.add_comm, Multiset.singleton_add]
    exact h.cons rfl
  | @join sid st kind hended =>
    rw [add_zero]
    have hself : .parent sid st ∈ Holder.parent sid st ::ₘ R := Multiset.mem_cons_self _ _
    refine h.restage (fun kind' hchild ↦ ?_) fun kind' ↦ Stages.get_of_set_unborn nofun
    rw [Stages.get_set]
    split
    next heq =>
      rw [heq] at hchild
      exact absurd (Multiset.mem_cons_of_mem hchild) (h.ended kind sid hended)
    next => exact h.get_of_child hself (Multiset.mem_cons_of_mem hchild)
  | @finish sid =>
    rw [add_zero]
    refine ((h.drop fun sid' st hsid kind hchild ↦ ?_).cons rfl).permits _
    cases hsid
    have hrunning := h.get_of_child (Multiset.mem_cons_self _ _) (Multiset.mem_cons_of_mem hchild)
    cases kind <;> cases hrunning
  | endChild kind =>
    rw [add_zero]
    exact h.finish.cons rfl

end Families

/-- Permits available and permits held add up to what the semaphore was created with. -/
def Conserved (cap : Nat) (d : Desk) (R : Multiset Holder) : Prop :=
  d.permits + R.countP (·.holds) = cap

theorem Conserved.moves {cap : Nat} {d d' : Desk} {r r' : Holder} {N R : Multiset Holder}
    (h : Conserved cap d (r ::ₘ R)) (hmove : HolderMoves d r d' r' N) :
    Conserved cap d' (r' ::ₘ (R + N)) := by
  simp only [Conserved, Multiset.countP_cons, Multiset.countP_add] at h ⊢
  cases hmove with
  | @still _ n =>
    have hothers : (Multiset.replicate n Holder.other).countP (·.holds) = 0 :=
      Multiset.countP_eq_zero.mpr fun x hx ↦ by
        rw [Multiset.eq_of_mem_replicate hx]
        decide
    rw [hothers, add_zero]
    exact h
  | take hpermits =>
    simp at h ⊢
    omega
  | accept | refuse | without | join => simpa using h
  | endChild => simpa [Desk.finish] using h
  | bear | handOver =>
    rw [← Multiset.cons_zero, Multiset.countP_cons]
    simpa using h
  | release | finish =>
    simp at h ⊢
    omega

/-- Only who holds a permit gives one back. -/
theorem HolderMoves.permits_le {d d' : Desk} {r r' : Holder} {N : Multiset Holder}
    (hmove : HolderMoves d r d' r' N) (hr : r.holds = false) : d'.permits ≤ d.permits := by
  cases hmove with
  | take => exact Nat.sub_le _ _
  | still | endChild => exact le_rfl
  | _ => cases hr

section Reading

variable {cfg : Config} {p : Pool State Task} {s s' : State} {choice : Choice} {x y : Task}
  {new : List Task}

/-- The holders among all tasks and calls. -/
def holders (p : Pool State Task) : Multiset Holder :=
  (p.threads : Multiset Task).map Task.holder

theorem mem_holders {r : Holder} : r ∈ holders p ↔ ∃ x ∈ p.threads, x.holder = r := by
  simp [holders]

theorem call_holder (h : x.isCall = true) : x.holder = .other := by
  revert h
  fun_cases Task.isCall x <;> simp [Task.holder]

theorem families_init : Families (State.new cfg).desk 0 where
  tokens := Multiset.nodup_zero
  fresh := by simp
  born := by simp
  ended kind _ hended := by cases kind <;> cases hended
  unborn := by simp
  unused kind _ _ := by cases kind <;> rfl

/-- The sessions and their children keep together. -/
theorem families (h : (server cfg).machine.Reachable p) : Families p.shared.desk (holders p) := by
  refine Threads.abstracted State.desk Task.holder HolderMoves (fun _ _ ↦ True) families_init ?_ (fun _ _ _ _ _ _ _ hact ↦ step_holder hact)
    (fun _ _ _ _ _ _ hI hmove ↦ hI.moves hmove)
    (Threads.reachable_restricted h fun _ _ ↦ trivial)
  intro d R x hI hx
  rw [call_holder hx]
  exact hI.cons rfl

/-- The permits are conserved. -/
theorem conserved (h : (server cfg).machine.Reachable p) :
    Conserved cfg.permits p.shared.desk (holders p) := by
  refine Threads.abstracted State.desk Task.holder HolderMoves (fun _ _ ↦ True) ?_ ?_ (fun _ _ _ _ _ _ _ hact ↦ step_holder hact)
    (fun _ _ _ _ _ _ hI hmove ↦ hI.moves hmove)
    (Threads.reachable_restricted h fun _ _ ↦ trivial)
  · simp [Conserved, server, State.desk, State.new]
  · intro d R x hI hx
    rw [call_holder hx]
    simpa [Conserved] using hI

/-- The session that a holder or a running child belongs to. -/
def Holder.session : Holder → Option SessionId
  | .parent sid _ | .child _ sid => some sid
  | _ => none

/-- The session that a holder holds a permit for. -/
def Holder.parentOf : Holder → Option SessionId
  | .parent sid _ => some sid
  | _ => none

/-- Every live session has a holder. -/
theorem parentOf_of_session (h : (server cfg).machine.Reachable p) {sid : SessionId}
    (hx : x ∈ p.threads) (hsid : x.holder.session = some sid) :
    ∃ z ∈ p.threads, z.holder.parentOf = some sid := by
  cases hholder : x.holder with
  | parent sid' st =>
    rw [hholder] at hsid
    exact ⟨x, hx, by rw [hholder]; exact hsid⟩
  | child kind sid' =>
    rw [hholder] at hsid
    obtain rfl : sid' = sid := Option.some.inj hsid
    obtain ⟨st, hparent, -⟩ := (families h).born kind sid' (mem_holders.mpr ⟨x, hx, hholder⟩)
    obtain ⟨z, hz, hparent⟩ := mem_holders.mp hparent
    exact ⟨z, hz, by rw [hparent]; rfl⟩
  | other | bare =>
    rw [hholder] at hsid
    cases hsid

private theorem admit_permits {sid : SessionId} {q : AdmitPoint} {q' : InfraPoint}
    (h : admitStep sid q choice s = some (q', s', new)) :
    s'.connectionPermits = s.connectionPermits := by
  revert h
  fun_cases admitStep sid q choice s
  all_goals rintro ⟨⟩
  case case19 => split <;> rfl
  all_goals rfl

private theorem infra_returns {q q' : InfraPoint} (h : infraStep q choice s = some (q', s', new))
    (hpermits : s.connectionPermits < s'.connectionPermits) :
    s' = s.releasePermit ∧ (Task.infra q').holder = .other ∧ ∃ panicked, q = .release panicked := by
  revert h
  fun_cases infraStep q choice s
  case case13 =>
    intro hadmit
    rw [admit_permits hadmit] at hpermits
    exact absurd hpermits (Nat.lt_irrefl _)
  case case8 =>
    rintro ⟨⟩
    exact absurd hpermits (Nat.not_lt.mpr (Nat.sub_le _ _))
  case case14 panicked =>
    rintro ⟨⟩
    refine ⟨rfl, ?_, panicked, rfl⟩
    split <;> rfl
  all_goals rintro ⟨⟩ <;> exact absurd hpermits (Nat.lt_irrefl _)

private theorem supervisor_returns {sid : SessionId} {q q' : SupervisorPoint}
    (h : supervisorStep sid q choice s = some (q', s'))
    (hpermits : s.connectionPermits < s'.connectionPermits) :
    s' = s.releasePermit ∧ q' = .leave ∧ q = .permit := by
  revert h
  fun_cases supervisorStep sid q choice s
  case case19 =>
    rintro ⟨⟩
    exact ⟨rfl, rfl, rfl⟩
  all_goals rintro ⟨⟩ <;> exact absurd hpermits (Nat.lt_irrefl _)

/-- A permit is given back by a failed admission or by a supervisor at its end. -/
theorem step_returns (h : step cfg x choice s = some (y, s', new))
    (hpermits : s.connectionPermits < s'.connectionPermits) :
    s' = s.releasePermit ∧ y.holder = .other ∧
      ((∃ panicked, x = .infra (.release panicked)) ∨ ∃ sid, x = .supervisor sid .permit) := by
  have hholds : x.holder.holds = true := by
    by_contra hr
    exact absurd ((step_holder h).permits_le (Bool.not_eq_true _ ▸ hr)) (Nat.not_le.mpr hpermits)
  cases x <;> simp only [step, Option.map_eq_some_iff, Prod.mk.injEq, Prod.exists] at h
  case infra =>
    obtain ⟨q', t, n, hq, rfl, rfl, rfl⟩ := h
    obtain ⟨hs, hother, panicked, rfl⟩ := infra_returns hq hpermits
    exact ⟨hs, hother, .inl ⟨panicked, rfl⟩⟩
  case supervisor sid _ =>
    obtain ⟨q', t, hq, rfl, rfl, rfl⟩ := h
    obtain ⟨hs, rfl, rfl⟩ := supervisor_returns hq hpermits
    exact ⟨hs, rfl, .inr ⟨sid, rfl⟩⟩
  case actor sid running => cases running <;> cases hholds
  case pump sid q => cases q <;> cases hholds
  all_goals cases hholds

/-- What holds of the permits of a reachable server. -/
structure PermitsConserved (cfg : Config) (p : Pool State Task) : Prop where
  /-- Those available and those held add up. -/
  conserved : p.shared.connectionPermits + p.threads.countP (·.holder.holds) = cfg.permits
  /-- There are never more live sessions than the cap. -/
  sessions : ∀ sids : List SessionId, sids.Nodup →
    (∀ sid ∈ sids, ∃ x ∈ p.threads, x.holder.session = some sid) → sids.length ≤ cfg.permits
  /-- While an actor or a pump runs its session holds a permit. -/
  held : ∀ kind sid, (∃ x ∈ p.threads, x.holder = .child kind sid) →
    ∃ y ∈ p.threads, y.holder.parentOf = some sid
  /-- A step that gives a permit back is the last one its holder takes as one: the end of a failed
  admission, or that of a supervisor whose actor and pump run no more. -/
  returned : ∀ t choice p', (server cfg).machine.step p (.run t choice) = some p' →
    p.shared.connectionPermits < p'.shared.connectionPermits →
    p'.shared.connectionPermits = p.shared.connectionPermits + 1 ∧
    (∃ y ∈ p'.threads[t]?, y.holder.holds = false) ∧
    ∃ x ∈ p.threads[t]?, (∃ panicked, x = .infra (.release panicked)) ∨
      ∃ sid, x = .supervisor sid .permit ∧ ∀ kind, ∀ z ∈ p.threads, z.holder ≠ .child kind sid
  /-- Nobody who holds a permit forgets it: it is given back, or the task spawned for the session has
  it. -/
  passed : ∀ t choice p', (server cfg).machine.step p (.run t choice) = some p' →
    ∀ x ∈ p.threads[t]?, x.holder.holds = true → ∀ y ∈ p'.threads[t]?, y.holder.holds = false →
      p'.shared.connectionPermits = p.shared.connectionPermits + 1 ∨
        p'.threads.drop p.threads.length ≠ [] ∧
          ∀ z ∈ p'.threads.drop p.threads.length, z.holder = x.holder

/-- The holders of permits are at least as many as different live sessions. -/
theorem sessions_le (h : (server cfg).machine.Reachable p) {sids : List SessionId}
    (hnodup : sids.Nodup) (hlive : ∀ sid ∈ sids, ∃ x ∈ p.threads, x.holder.session = some sid) :
    sids.length ≤ p.threads.countP (·.holder.holds) := by
  have hsub : sids ⊆ p.threads.filterMap (·.holder.parentOf) := by
    intro sid hsid
    obtain ⟨x, hx, hsession⟩ := hlive sid hsid
    obtain ⟨z, hz, hparent⟩ := parentOf_of_session h hx hsession
    exact List.mem_filterMap.mpr ⟨z, hz, hparent⟩
  calc sids.length ≤ (p.threads.filterMap (·.holder.parentOf)).length :=
        (hnodup.subperm hsub).length_le
    _ = p.threads.countP (·.holder.parentOf.isSome) := List.length_filterMap_eq_countP
    _ ≤ p.threads.countP (·.holder.holds) := by
        refine List.countP_mono_left fun x _ hx ↦ ?_
        cases hholder : x.holder with
        | parent sid st => rfl
        | other | bare | child => rw [hholder] at hx; cases hx

/-- A supervisor about to give back its permit has joined its actor and its pump. -/
theorem joined_of_permit (h : (server cfg).machine.Reachable p) {sid : SessionId}
    (hx : .supervisor sid .permit ∈ p.threads) (kind : Child) :
    ∀ z ∈ p.threads, z.holder ≠ .child kind sid := by
  intro z hz hchild
  have hparent : .parent sid ⟨.gone, .gone⟩ ∈ holders p := mem_holders.mpr ⟨_, hx, rfl⟩
  have hgone := (families h).get_of_child hparent (mem_holders.mpr ⟨z, hz, hchild⟩)
  cases kind <;> cases hgone

theorem permits_add_holders (h : (server cfg).machine.Reachable p) :
    p.shared.connectionPermits + p.threads.countP (·.holder.holds) = cfg.permits := by
  have hconserved := conserved h
  rw [Conserved, holders, Multiset.map_coe, Multiset.coe_countP, List.countP_map] at hconserved
  simpa only [State.desk, Function.comp_def, Bool.decide_eq_true] using hconserved

/-- A holder that is none after its step gave its permit back or handed it over. -/
theorem HolderMoves.passed {d d' : Desk} {r r' : Holder} {N : Multiset Holder}
    (hmove : HolderMoves d r d' r' N) (hr : r.holds = true) (hr' : r'.holds = false) :
    d'.permits = d.permits + 1 ∨ N = {r} := by
  cases hmove with
  | still =>
    rw [hr] at hr'
    cases hr'
  | release | finish => exact .inl rfl
  | handOver => exact .inr rfl
  | take | endChild => cases hr
  | accept | refuse | bear | without | join => cases hr'

/-- Every reachable server conserves its permits. -/
theorem permits_conserved (h : (server cfg).machine.Reachable p) : PermitsConserved cfg p where
  conserved := permits_add_holders h
  sessions sids hnodup hlive :=
    calc sids.length ≤ p.threads.countP (·.holder.holds) := sessions_le h hnodup hlive
      _ ≤ p.shared.connectionPermits + p.threads.countP (·.holder.holds) := Nat.le_add_left _ _
      _ = cfg.permits := permits_add_holders h
  held kind sid hlive := by
    obtain ⟨x, hx, hchild⟩ := hlive
    exact parentOf_of_session h hx (by rw [hchild]; rfl)
  returned t choice p' hstep hpermits := by
    obtain ⟨x, y, s, new, hx, hact, rfl, hy, -⟩ := Threads.run_cases hstep
    obtain ⟨hs, hother, hwho⟩ := step_returns hact hpermits
    refine ⟨by rw [hs]; rfl, ⟨y, hy, by rw [hother]; rfl⟩, x, hx, hwho.imp_right ?_⟩
    rintro ⟨sid, rfl⟩
    exact ⟨sid, rfl, fun kind ↦ joined_of_permit h (List.mem_of_getElem? hx) kind⟩
  passed t choice p' hstep x hx hholds y hy hnot := by
    obtain ⟨x', y', s, new, hx', hact, rfl, hy', hnew⟩ := Threads.run_cases hstep
    obtain rfl : x' = x := Option.some.inj (hx'.symm.trans hx)
    obtain rfl : y' = y := Option.some.inj (hy'.symm.trans hy)
    obtain hpermits | hN := (step_holder hact).passed hholds hnot
    · exact .inl hpermits
    · right
      rw [hnew]
      have hnew : new.map Task.holder = [x'.holder] := by
        rw [← Multiset.coe_eq_singleton, hN]
      refine ⟨fun hnil ↦ ?_, fun z hz ↦ ?_⟩
      · rw [hnil] at hnew
        cases hnew
      · have hmem := List.mem_map_of_mem (f := Task.holder) hz
        rw [hnew] at hmem
        exact List.mem_singleton.mp hmem

/-- One protocol and room for one session. -/
def oneSession : Config := ⟨some 1, 1, by simp, by simp [maxPermits]⟩

/-- A session is admitted, its actor panics, its pump is joined. -/
def joiningTurns : List (Turn Task Choice) :=
  List.flatten [[.start (.serve .gate)], List.replicate 3 (.run 0 .go),
    [.run 1 .go, .run 1 .succeeds, .run 1 .go, .run 1 .go],
    [.run 2 .succeeds, .run 2 .go, .run 2 .go, .run 2 .go, .run 2 (.flag true)],
    List.replicate 8 (.run 2 .go), [.run 3 .panic, .run 5 .go, .run 5 (.flag true), .run 5 .go],
    List.replicate 5 (.run 4 .go), List.replicate 4 (.run 5 .go)]

/-- A state where a supervisor is about to give its permit back. -/
theorem permits_conserved_of_joining :
    ∃ p, (server oneSession).machine.run (server oneSession).machine.start joiningTurns = some p ∧
      p.shared.connectionPermits = 0 ∧ .supervisor 1 .permit ∈ p.threads ∧
      PermitsConserved oneSession p := by
  have hrun : ((server oneSession).machine.run (server oneSession).machine.start
      joiningTurns).map (fun p ↦ (p.shared.connectionPermits, p.threads.getLast?)) =
        some (0, some (.supervisor 1 .permit)) := by decide +kernel
  obtain ⟨p, hp, hends⟩ := Option.map_eq_some_iff.mp hrun
  obtain ⟨hpermits, hlast⟩ := Prod.mk.inj hends
  exact ⟨p, hp, hpermits, List.mem_of_getLast? hlast,
    permits_conserved (Machine.Reachable.of_run .start hp)⟩

end Reading

end MsgTrans.Server
