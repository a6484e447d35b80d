import MsgTrans.Base.Brackets
import MsgTrans.Client.Coherence

/-!
# The client transport: connection events are bracketed

`connect` announces its connection in the client's event queue, and the consumer task of a
connection forwards its closing event (`transport.rs:403–412,425–457,650–677`); the forwarding task
passes the queue on in order (`client.rs:738–850`). Nothing makes a `connect` wait for the consumer
of the connection before it, whose closing event then comes late or, where the epoch filter finds
the new generation, never. The events are bracketed in exactly the runs in which every announcement
finds the earlier consumers done with theirs.
-/

namespace MsgTrans.Client.Connection

open MsgTrans.Base MsgTrans.Adapters MsgTrans.Registry MsgTrans.Transport

/-- What an event says about its generation. -/
def Tagged.mark : Tagged → Option (Mark SessionId)
  | ⟨sid, .connected⟩ => some (.opened sid)
  | ⟨sid, .disconnected⟩ => some (.closed sid)
  | ⟨_, .other⟩ => none

/-- The `Connected` and `Disconnected` events among these, with their generations. -/
def marks (es : List Tagged) : List (Mark SessionId) := es.filterMap Tagged.mark

/-- The task has the closing event of its pipe still to forward, or has left its loop without. -/
def Consumer.owes : Consumer → Bool
  | .drained | .retiring (some true) | .marking (some true) _ | .removing (some true) _
  | .ended true => false
  | _ => true

/-- The announced generation whose closing event has not been forwarded. -/
def Thread.owes : Thread → Option SessionId
  | .connect (.spawning sid) => some sid
  | .consumer sid point => if point.owes then some sid else none
  | _ => none

/-- The call comes next to the announcement of its connection. -/
def Thread.announcing : Thread → Bool
  | .connect (.announcing _) => true
  | _ => false

/-- A connection is announced only when the closing event of every generation announced before has
been forwarded. -/
def prompt (_ : Shared) (M : Multiset Thread) (x : Thread) (choice : Choice) : Prop :=
  choice = .go → x.announcing = true → ∀ z ∈ M, z.owes = none

instance (s : Shared) (M : Multiset Thread) (x : Thread) (choice : Choice) :
    Decidable (prompt s M x choice) :=
  inferInstanceAs (Decidable (choice = .go → x.announcing = true → ∀ z ∈ M, z.owes = none))

/-- The `Connected` and `Disconnected` events that were published, and those that the consumer saw,
alternate, from a `Connected` on, and each generation's `Disconnected` comes once and before the
next generation's `Connected`. -/
def Framed (p : Pool Shared Thread) : Prop :=
  Bracketed (marks p.shared.published) ∧ Bracketed (marks p.shared.seen)

/-- The generation of a connection that is installed and not announced yet. -/
def Thread.unannounced : Thread → Option SessionId
  | .connect (.adding sid) | .connect (.announcing sid) => some sid
  | _ => none

theorem marks_append (es es' : List Tagged) : marks (es ++ es') = marks es ++ marks es' :=
  List.filterMap_append

/-- What a step publishes, and what becomes of the closing event its thread owes. -/
inductive Report (s : Shared) : Thread → Choice → Shared → Thread → List Thread → Prop where
  | silent {x y : Thread} {choice : Choice} {s' : Shared} {new : List Thread}
      (hmarks : marks s'.published = marks s.published)
      (howes : (y :: new).filterMap Thread.owes = x.owes.toList)
      (hepoch : s.connectionEpoch ≤ s'.connectionEpoch)
      (hnew : ∀ z ∈ y :: new, ∀ sid ∈ z.unannounced,
        x.unannounced = some sid ∨ sid = s.connectionEpoch + 1) :
      Report s x choice s' y new
  | announce {sid : SessionId} :
      Report s (.connect (.announcing sid)) .go (s.publish ⟨sid, .connected⟩)
        (.connect (.spawning sid)) []
  | close {sid : SessionId} {choice : Choice} :
      Report s (.consumer sid (.forwarding true)) choice (s.publish ⟨sid, .disconnected⟩)
        (.consumer sid .drained) []

section Steps

variable {capacity : Nat} {s s' : Shared} {choice : Choice} {x y : Thread} {new : List Thread}

private theorem connect_reports {c c' : Connect}
    (h : connectStep capacity c choice s = some (c', s', new)) :
    Report s (.connect c) choice s' (.connect c') new := by
  revert h
  fun_cases connectStep capacity c choice s
  case case1 | case10 | case27 => rintro ⟨⟩
  all_goals rintro ⟨⟩
  case case9 => exact .announce
  case case7 => exact .silent rfl rfl (Nat.le_succ _) (by simp [Thread.unannounced])
  all_goals exact .silent rfl rfl le_rfl (by simp [Thread.unannounced])

private theorem disconnect_reports {force : Bool} {d d' : Disconnect}
    (h : disconnectStep force d choice s = some (d', s')) :
    Report s (.disconnect force d) choice s' (.disconnect force d') [] := by
  revert h
  fun_cases disconnectStep force d choice s
  case case1 | case22 => rintro ⟨⟩
  all_goals rintro ⟨⟩
  all_goals exact .silent rfl rfl le_rfl (by simp [Thread.unannounced])

private theorem consumer_reports {sid : SessionId} {c c' : Consumer}
    (h : consumerStep capacity sid c choice s = some (c', s')) :
    Report s (.consumer sid c) choice s' (.consumer sid c') [] := by
  revert h
  fun_cases consumerStep capacity sid c choice s
  case case12 | case14 => rintro ⟨⟩
  all_goals rintro ⟨⟩
  case case11 closing _ =>
    cases closing with
    | true => exact .close
    | false =>
      refine .silent ?_ rfl le_rfl (by simp [Thread.unannounced])
      show marks (s.published ++ [_]) = marks s.published
      rw [marks_append]
      exact List.append_nil _
  case case3 closing _ =>
    cases closing <;> exact .silent rfl rfl le_rfl (by simp [Thread.unannounced])
  case case7 exit _ | case8 exit _ =>
    obtain _ | _ | _ := exit <;> exact .silent rfl rfl le_rfl (by simp [Thread.unannounced])
  case case9 exit taken =>
    obtain _ | _ | _ := exit <;> exact .silent rfl rfl le_rfl (by simp [Thread.unannounced])
  case case10 exit taken _ =>
    cases taken <;> obtain _ | _ | _ := exit <;>
      exact .silent rfl rfl le_rfl (by simp [Thread.unannounced])
  all_goals exact .silent rfl rfl le_rfl (by simp [Thread.unannounced])

/-- Every step announces a connection, forwards a closing event or says nothing of either. -/
theorem act_reports (h : act capacity x choice s = some (y, s', new)) :
    Report s x choice s' y new := by
  cases x <;> simp only [act, Option.map_eq_some_iff, Prod.mk.injEq, Prod.exists] at h
  case connect => obtain ⟨c', t, n, hc, rfl, rfl, rfl⟩ := h; exact connect_reports hc
  case disconnect => obtain ⟨d', t, hd, rfl, rfl, rfl⟩ := h; exact disconnect_reports hd
  case consumer => obtain ⟨c', t, hc, rfl, rfl, rfl⟩ := h; exact consumer_reports hc
  case forwarder f =>
    obtain ⟨f', t, hf, rfl, rfl, rfl⟩ := h
    revert hf
    fun_cases forwarderStep capacity f choice s
    all_goals rintro ⟨⟩ <;> exact .silent rfl rfl le_rfl (by simp [Thread.unannounced])
  case reader r =>
    obtain ⟨r', t, hr, rfl, rfl, rfl⟩ := h
    revert hr
    fun_cases readerStep r s
    all_goals rintro ⟨⟩ <;> exact .silent rfl rfl le_rfl (by simp [Thread.unannounced])

end Steps

/-- The history of announcements and closing events, with the one closing event that is owed. -/
structure Owed (s : Shared) (M : Multiset Thread) (items : List SessionId)
    (last : Option SessionId) : Prop where
  framing : Framing (marks s.published) items last
  owes : M.filterMap Thread.owes = (last.toList : Multiset SessionId)
  known : ∀ i ∈ items ++ last.toList, i ≤ s.connectionEpoch
  later : ∀ x ∈ M, ∀ sid ∈ x.unannounced, ∀ i ∈ items ++ last.toList, i < sid

section Invariant

variable {s s' : Shared} {choice : Choice} {x y : Thread} {new : List Thread} {M : Multiset Thread}
  {items : List SessionId} {last : Option SessionId} {sid : SessionId}

/-- The threads after a step: the one that stepped with those it spawned, and the others. -/
private theorem moved_split :
    y ::ₘ (M + (new : Multiset Thread)) = ((y :: new : List Thread) : Multiset Thread) + M := by
  rw [← Multiset.cons_coe, Multiset.cons_add, add_comm M]

/-- What a thread and the others owe. -/
private theorem owes_cons :
    (x ::ₘ M).filterMap Thread.owes = (x.owes.toList : Multiset SessionId) +
      M.filterMap Thread.owes := by
  cases h : x.owes with
  | none => rw [Multiset.filterMap_cons_none _ _ h]; exact (zero_add _).symm
  | some sid => rw [Multiset.filterMap_cons_some _ _ _ h]; rfl

/-- A step that neither announces nor closes keeps the history and what is owed. -/
private theorem Owed.silent (h : Owed s (x ::ₘ M) items last)
    (hmarks : marks s'.published = marks s.published)
    (howes : (y :: new).filterMap Thread.owes = x.owes.toList)
    (hepoch : s.connectionEpoch ≤ s'.connectionEpoch)
    (hnew : ∀ z ∈ y :: new, ∀ sid ∈ z.unannounced,
      x.unannounced = some sid ∨ sid = s.connectionEpoch + 1) :
    Owed s' (y ::ₘ (M + (new : Multiset Thread))) items last where
  framing := hmarks ▸ h.framing
  owes := by
    rw [moved_split, Multiset.filterMap_add, Multiset.filterMap_coe, howes, ← owes_cons]
    exact h.owes
  known i hi := (h.known i hi).trans hepoch
  later z hz sid hsid i hi := by
    have hold : ∀ z ∈ x ::ₘ M, ∀ sid ∈ z.unannounced, i < sid := fun z hz sid hsid ↦
      h.later z hz sid hsid i hi
    have hfresh : z ∈ y :: new → i < sid := by
      intro hz
      obtain hx | rfl := hnew z hz sid hsid
      · exact hold x (Multiset.mem_cons_self x M) sid hx
      · exact Nat.lt_succ_of_le (h.known i hi)
    obtain rfl | hz := Multiset.mem_cons.mp hz
    · exact hfresh List.mem_cons_self
    obtain hz | hz := Multiset.mem_add.mp hz
    · exact hold z (Multiset.mem_cons_of_mem hz) sid hsid
    · exact hfresh (List.mem_cons_of_mem _ hz)

/-- Where no thread owes a closing event, none is owed. -/
private theorem Owed.nothing (h : Owed s M items last) (hM : ∀ z ∈ M, z.owes = none) :
    last = none ∧ M.filterMap Thread.owes = 0 := by
  have hzero : M.filterMap Thread.owes = 0 := by
    refine Multiset.eq_zero_of_forall_notMem fun sid hsid ↦ ?_
    obtain ⟨z, hz, howes⟩ := (Multiset.mem_filterMap _ _).mp hsid
    rw [hM z hz] at howes
    cases howes
  have howes := h.owes
  rw [hzero] at howes
  cases last with
  | none => exact ⟨rfl, hzero⟩
  | some sid => exact absurd howes.symm (Multiset.singleton_ne_zero sid)

/-- Where a thread owes a closing event, it is the one that is owed. -/
private theorem Owed.owing (h : Owed s (x ::ₘ M) items last) (hx : x.owes = some sid) :
    last = some sid ∧ M.filterMap Thread.owes = 0 := by
  have howes := h.owes
  rw [owes_cons, hx] at howes
  cases last with
  | none =>
    have hmem : sid ∈ (0 : Multiset SessionId) := by
      have h' : (({sid} : Multiset SessionId) + M.filterMap Thread.owes) = 0 := howes
      rw [← h']
      simp
    exact absurd hmem (Multiset.notMem_zero sid)
  | some sid' =>
    have h' : sid ::ₘ M.filterMap Thread.owes = sid' ::ₘ 0 := by
      rw [← Multiset.singleton_add]
      exact howes
    obtain ⟨rfl, hM⟩ | ⟨hne, F, -, hF⟩ := Multiset.cons_eq_cons.mp h'
    · exact ⟨rfl, hM⟩
    · exact absurd hF.symm (Multiset.cons_ne_zero)

/-- A prompt announcement opens the next generation. -/
private theorem Owed.announce (h : Owed s (.connect (.announcing sid) ::ₘ M) items none)
    (hinv : Inv False s.toLink ((.connect (.announcing sid) ::ₘ M).map Thread.role)) :
    Owed (s.publish ⟨sid, .connected⟩) (.connect (.spawning sid) ::ₘ M) items (some sid) := by
  rw [Multiset.map_cons] at hinv
  have hlater : ∀ i ∈ items, i < sid := fun i hi ↦
    h.later _ (Multiset.mem_cons_self _ M) sid rfl i (List.mem_append_left _ hi)
  have hsid : sid = s.connectionEpoch := hinv.known _ (Multiset.mem_cons_self _ _)
  refine ⟨?_, ?_, fun i hi ↦ ?_, fun z hz sid' hsid' ↦ ?_⟩
  · show Framing (marks (s.published ++ [⟨sid, .connected⟩])) items (some sid)
    rw [marks_append]
    exact h.framing.opening hlater
  · have hM := h.owes
    rw [owes_cons] at hM
    have hM' : M.filterMap Thread.owes = 0 := (zero_add _).symm.trans hM
    rw [owes_cons, hM']
    rfl
  · obtain hi | hi := List.mem_append.mp hi
    · exact h.known i (List.mem_append_left _ hi)
    · rw [List.mem_singleton.mp hi]
      exact Nat.le_of_eq hsid
  · -- The client is borrowed by this call, so no other one is about to announce.
    obtain rfl | hz := Multiset.mem_cons.mp hz
    · cases hsid'
    have hidle := (hinv.toBorrowed.alone rfl (Multiset.mem_map_of_mem Thread.role hz)).1
    revert hsid'
    fun_cases Thread.unannounced z
    · cases hidle
    · cases hidle
    · rintro ⟨⟩

/-- The closing event that is owed closes its generation. -/
private theorem Owed.close (h : Owed s (.consumer sid (.forwarding true) ::ₘ M) items last) :
    Owed (s.publish ⟨sid, .disconnected⟩) (.consumer sid .drained ::ₘ M) (items ++ [sid]) none := by
  obtain ⟨rfl, hM⟩ := h.owing rfl
  have hitems : items ++ [sid] ++ (none : Option SessionId).toList = items ++ [sid] :=
    List.append_nil _
  refine ⟨?_, ?_, ?_, ?_⟩
  · show Framing (marks (s.published ++ [⟨sid, .disconnected⟩])) (items ++ [sid]) none
    rw [marks_append]
    exact h.framing.closing
  · rw [owes_cons, hM]
    rfl
  · rw [hitems]
    exact h.known
  · rw [hitems]
    intro z hz sid' hsid'
    obtain rfl | hz := Multiset.mem_cons.mp hz
    · cases hsid'
    · exact h.later z (Multiset.mem_cons_of_mem hz) sid' hsid'

end Invariant

section Runs

variable {capacity : Nat} {p p' : Pool Shared Thread} {turn : Turn Thread Choice}

/-- The client's link and roles fit, and the history is one of prompt announcements. -/
def InOrder (p : Pool Shared Thread) : Prop :=
  Inv False p.shared.toLink (roles p) ∧ ∃ items last, Owed p.shared p.threads items last

theorem inOrder_init : InOrder (client capacity).machine.start :=
  ⟨Inv.init, [], none, Framing.nil, rfl, fun _ h ↦ absurd h List.not_mem_nil,
    fun _ h ↦ absurd h (Multiset.notMem_zero _)⟩

/-- What may be called from outside has announced nothing and owes nothing. -/
private theorem entry_owes {x : Thread} (h : x.entry = true) :
    x.owes = none ∧ x.unannounced = none := by
  revert h
  fun_cases Thread.entry x
  · exact fun _ ↦ ⟨rfl, rfl⟩
  · exact fun _ ↦ ⟨rfl, rfl⟩
  · exact fun _ ↦ ⟨rfl, rfl⟩
  · rintro ⟨⟩

private theorem Owed.start {s : Shared} {M : Multiset Thread} {x : Thread} {items : List SessionId}
    {last : Option SessionId} (h : Owed s M items last) (hx : x.entry = true) :
    Owed s (x ::ₘ M) items last where
  framing := h.framing
  owes := by
    rw [owes_cons, (entry_owes hx).1]
    exact (zero_add _).trans h.owes
  known := h.known
  later z hz sid hsid := by
    obtain rfl | hz := Multiset.mem_cons.mp hz
    · rw [(entry_owes hx).2] at hsid
      cases hsid
    · exact h.later z hz sid hsid

/-- Prompt steps keep the order. -/
theorem InOrder.step (h : InOrder p) (hmay : Threads.permitted prompt p turn)
    (hstep : (client capacity).machine.step p turn = some p') : InOrder p' := by
  refine Threads.permitted_step (J := fun s M ↦ Inv False s.toLink (M.map Thread.role) ∧
    ∃ items last, Owed s M items last) prompt ?_ ?_ h hmay hstep
  · rintro s M x ⟨hinv, items, last, hown⟩ hx
    refine ⟨?_, items, last, hown.start hx⟩
    rw [Multiset.map_cons, entry_role hx]
    exact hinv.start
  · rintro s M x choice y s' new ⟨hinv, items, last, hown⟩ hprompt hact
    constructor
    · rw [Multiset.map_cons] at hinv
      rw [Multiset.map_cons, Multiset.map_add, Multiset.map_coe]
      exact hinv.moves (act_moves (fun h : False ↦ h.elim) hact)
    · cases act_reports hact with
      | silent hmarks howes hepoch hnew =>
        exact ⟨items, last, hown.silent hmarks howes hepoch hnew⟩
      | @announce sid =>
        obtain ⟨rfl, -⟩ := hown.nothing (hprompt rfl rfl)
        rw [Multiset.coe_nil, add_zero]
        exact ⟨items, some sid, hown.announce hinv⟩
      | @close sid =>
        rw [Multiset.coe_nil, add_zero]
        exact ⟨items ++ [sid], none, hown.close⟩

/-- An announcement that comes too early breaks the frame. -/
theorem InOrder.early (h : InOrder p) (hmay : ¬ Threads.permitted prompt p turn)
    (hstep : (client capacity).machine.step p turn = some p') :
    ¬ Bracketed (marks p'.shared.published) := by
  obtain ⟨-, items, last, hown⟩ := h
  obtain ⟨x, rfl, -, -⟩ | ⟨t, choice, x, y, s, new, rfl, hx, hact, rfl⟩ :=
    Threads.step_cases hstep
  · exact absurd trivial hmay
  have hnot : ¬ prompt p.shared p.threads x choice := by
    refine fun hprompt ↦ hmay fun z hz ↦ ?_
    rw [Option.mem_def, hx] at hz
    obtain rfl := Option.some.inj hz
    exact hprompt
  simp only [prompt, Classical.not_imp, not_forall] at hnot
  obtain ⟨rfl, hannouncing, z, hz, howes⟩ := hnot
  obtain ⟨sid, hsid⟩ := Option.ne_none_iff_exists'.mp howes
  obtain ⟨F, hF⟩ := Multiset.exists_cons_of_mem hz
  obtain ⟨rfl, -⟩ := (hF ▸ hown).owing hsid
  obtain ⟨sid', rfl⟩ : ∃ sid', x = .connect (.announcing sid') := by
    revert hannouncing
    fun_cases Thread.announcing x
    · exact fun _ ↦ ⟨_, rfl⟩
    · rintro ⟨⟩
  have hpublished : s = p.shared.publish ⟨sid', .connected⟩ := by
    have hact' : act capacity (.connect (.announcing sid')) .go p.shared = some (y, s, new) := hact
    simp only [act, connectStep] at hact'
    split at hact'
    · simp only [Option.map_some, Option.some.injEq, Prod.mk.injEq] at hact'
      exact hact'.2.1.symm
    · cases hact'
  show ¬ Bracketed (marks s.published)
  rw [hpublished]
  show ¬ Bracketed (marks (p.shared.published ++ [⟨sid', .connected⟩]))
  rw [marks_append]
  exact hown.framing.not_bracketed sid'

/-- What was published stays published. -/
theorem published_grows (hstep : (client capacity).machine.step p turn = some p') :
    marks p.shared.published <+: marks p'.shared.published := by
  obtain ⟨x, rfl, -, rfl⟩ | ⟨t, choice, x, y, s, new, rfl, hx, hact, rfl⟩ :=
    Threads.step_cases hstep
  · exact List.prefix_rfl
  cases act_reports hact with
  | silent hmarks => exact hmarks ▸ List.prefix_rfl
  | announce | close =>
    show marks p.shared.published <+: marks (p.shared.published ++ [_])
    rw [marks_append]
    exact List.prefix_append _ _

/-- The forwarding task, if the thread is it. -/
def Thread.forwarder? : Thread → Option Forwarder
  | .forwarder f => some f
  | _ => none

/-- The event that the forwarding task has in hand. -/
def Forwarder.carried : Forwarder → List Tagged
  | .receiving => []
  | .sending e => [e]

/-- What was published is on its way to the consumer, in order, in one queue, the hands of the one
forwarding task and the other queue, or the consumer has seen it. -/
def Delivered (s : Shared) (M : Multiset Thread) : Prop :=
  ∃ f : Forwarder, M.filterMap Thread.forwarder? = (if s.clientEventsRx then 0 else {f}) ∧
    (s.clientEventsRx = true → f = .receiving) ∧
    marks (s.seen ++ (s.events ++ (f.carried ++ s.clientEvents))) = marks s.published

/-- The queues between the tasks, with the history of their two ends. -/
def Shared.queues (s : Shared) : List Tagged × Bool × List Tagged × List Tagged × List Tagged :=
  (s.clientEvents, s.clientEventsRx, s.events, s.seen, s.published)

/-- What a step does to the queues. -/
inductive Flow (s : Shared) : Thread → Shared → Thread → List Thread → Prop where
  | still {x y : Thread} {s' : Shared} {new : List Thread} (hx : x.forwarder? = none)
      (hnew : (y :: new).filterMap Thread.forwarder? = []) (hqueues : s'.queues = s.queues) :
      Flow s x s' y new
  | publish {x y : Thread} (e : Tagged) (hx : x.forwarder? = none) (hy : y.forwarder? = none) :
      Flow s x (s.publish e) y []
  | spawn {x y : Thread} (hrx : s.clientEventsRx = true) (hx : x.forwarder? = none)
      (hy : y.forwarder? = none) :
      Flow s x { s with clientEventsRx := false } y [.forwarder .receiving]
  | receive {e : Tagged} {rest : List Tagged} (h : s.clientEvents = e :: rest) :
      Flow s (.forwarder .receiving) { s with clientEvents := rest } (.forwarder (.sending e)) []
  | skip {e : Tagged} {rest : List Tagged} (h : s.clientEvents = e :: rest)
      (he : e.notice = .other) :
      Flow s (.forwarder .receiving) { s with clientEvents := rest } (.forwarder .receiving) []
  | send {e : Tagged} :
      Flow s (.forwarder (.sending e)) { s with events := s.events ++ [e] }
        (.forwarder .receiving) []
  | read {e : Tagged} {rest : List Tagged} (h : s.events = e :: rest) :
      Flow s (.reader true) { s with events := rest, seen := s.seen ++ [e] } (.reader true) []

section Delivery

variable {s s' : Shared} {choice : Choice} {x y : Thread} {new : List Thread} {M : Multiset Thread}

/-- Every step moves at most one event along its way. -/
private theorem act_flows (h : act capacity x choice s = some (y, s', new)) :
    Flow s x s' y new := by
  cases x <;> simp only [act, Option.map_eq_some_iff, Prod.mk.injEq, Prod.exists] at h
  case connect c =>
    obtain ⟨c', t, n, hc, rfl, rfl, rfl⟩ := h
    revert hc
    fun_cases connectStep capacity c choice s
    case case1 | case10 | case27 => rintro ⟨⟩
    all_goals rintro ⟨⟩
    case case9 => exact .publish _ rfl rfl
    case case16 hrx => exact .spawn hrx rfl rfl
    all_goals exact .still rfl rfl rfl
  case disconnect force d =>
    obtain ⟨d', t, hd, rfl, rfl, rfl⟩ := h
    revert hd
    fun_cases disconnectStep force d choice s
    case case1 | case22 => rintro ⟨⟩
    all_goals rintro ⟨⟩
    all_goals exact .still rfl rfl rfl
  case consumer sid c =>
    obtain ⟨c', t, hc, rfl, rfl, rfl⟩ := h
    revert hc
    fun_cases consumerStep capacity sid c choice s
    case case12 | case14 => rintro ⟨⟩
    all_goals rintro ⟨⟩
    case case10 exit taken _ => cases taken <;> exact .still rfl rfl rfl
    case case11 => exact .publish _ rfl rfl
    all_goals exact .still rfl rfl rfl
  case forwarder f =>
    obtain ⟨f', t, hf, rfl, rfl, rfl⟩ := h
    revert hf
    fun_cases forwarderStep capacity f choice s
    case case1 | case5 => rintro ⟨⟩
    all_goals rintro ⟨⟩
    case case2 e rest hskip hqueue => exact .skip hqueue hskip.2
    case case3 e rest _ hqueue => exact .receive hqueue
    case case4 => exact .send
  case reader r =>
    obtain ⟨r', t, hr, rfl, rfl, rfl⟩ := h
    revert hr
    fun_cases readerStep r s
    case case2 | case3 => rintro ⟨⟩
    all_goals rintro ⟨⟩
    case case1 => exact .still rfl rfl rfl
    case case4 e rest hqueue => exact .read hqueue

/-- Who is the forwarding task among a thread and the others. -/
private theorem forwarder_cons (h : x.forwarder? = none) :
    (x ::ₘ M).filterMap Thread.forwarder? = M.filterMap Thread.forwarder? :=
  Multiset.filterMap_cons_none _ _ h

private theorem forwarder_cons_self {f : Forwarder} :
    (Thread.forwarder f ::ₘ M).filterMap Thread.forwarder? = f ::ₘ M.filterMap Thread.forwarder? :=
  Multiset.filterMap_cons_some _ _ _ rfl

/-- The one forwarding task is the thread that steps. -/
private theorem Delivered.forwarding {f : Forwarder} (h : Delivered s (.forwarder f ::ₘ M)) :
    s.clientEventsRx = false ∧ M.filterMap Thread.forwarder? = 0 ∧
      marks (s.seen ++ (s.events ++ (f.carried ++ s.clientEvents))) = marks s.published := by
  obtain ⟨f', hf, -, hmarks⟩ := h
  rw [forwarder_cons_self] at hf
  cases hrx : s.clientEventsRx with
  | true =>
    rw [hrx, if_pos rfl] at hf
    exact absurd hf (Multiset.cons_ne_zero)
  | false =>
    rw [hrx, if_neg Bool.false_ne_true, ← Multiset.cons_zero] at hf
    obtain ⟨rfl, hM⟩ | ⟨-, F, -, hF⟩ := Multiset.cons_eq_cons.mp hf
    · exact ⟨rfl, hM, hmarks⟩
    · exact absurd hF.symm Multiset.cons_ne_zero

/-- What the forwarding task does next to the queues. -/
private theorem Delivered.of_forwarder {f' : Forwarder} (hrx : s.clientEventsRx = false)
    (hM : M.filterMap Thread.forwarder? = 0) (hrx' : s'.clientEventsRx = s.clientEventsRx)
    (hmarks : marks (s'.seen ++ (s'.events ++ (f'.carried ++ s'.clientEvents))) =
      marks s'.published) : Delivered s' (.forwarder f' ::ₘ (M + 0)) := by
  refine ⟨f', ?_, fun h ↦ ?_, hmarks⟩
  · rw [add_zero, forwarder_cons_self, hM, hrx', hrx, if_neg Bool.false_ne_true]
    rfl
  · rw [hrx', hrx] at h
    cases h

/-- Every step keeps what is on its way in order. -/
private theorem Delivered.flow (h : Delivered s (x ::ₘ M)) (hflow : Flow s x s' y new) :
    Delivered s' (y ::ₘ (M + (new : Multiset Thread))) := by
  cases hflow with
  | still hx hnew hqueues =>
    obtain ⟨f, hf, hrx, hmarks⟩ := h
    simp only [Shared.queues, Prod.mk.injEq] at hqueues
    obtain ⟨hclient, hrx', hevents, hseen, hpublished⟩ := hqueues
    refine ⟨f, ?_, fun h ↦ hrx (hrx' ▸ h), ?_⟩
    · rw [moved_split, Multiset.filterMap_add, Multiset.filterMap_coe, hnew, hrx', ← hf,
        forwarder_cons hx]
      exact zero_add _
    · rw [hclient, hevents, hseen, hpublished]
      exact hmarks
  | publish e hx hy =>
    obtain ⟨f, hf, hrx, hmarks⟩ := h
    refine ⟨f, ?_, hrx, ?_⟩
    · rw [Multiset.coe_nil, add_zero, forwarder_cons hy, ← forwarder_cons hx]
      exact hf
    · show marks (s.seen ++ (s.events ++ (f.carried ++ (s.clientEvents ++ [e])))) =
        marks (s.published ++ [e])
      rw [marks_append s.published, ← hmarks, ← marks_append]
      simp only [List.append_assoc]
  | spawn hrx hx hy =>
    obtain ⟨f, hf, hreceiving, hmarks⟩ := h
    obtain rfl := hreceiving hrx
    rw [forwarder_cons hx, hrx, if_pos rfl] at hf
    refine ⟨.receiving, ?_, fun _ ↦ rfl, hmarks⟩
    rw [forwarder_cons hy, Multiset.filterMap_add, hf]
    rfl
  | receive hqueue =>
    obtain ⟨hrx, hM, hmarks⟩ := h.forwarding
    refine .of_forwarder hrx hM rfl ?_
    rw [hqueue] at hmarks
    exact hmarks
  | @skip e rest hqueue he =>
    obtain ⟨hrx, hM, hmarks⟩ := h.forwarding
    refine .of_forwarder hrx hM rfl ?_
    have hmark : e.mark = none := by
      obtain ⟨sid, notice⟩ := e
      obtain rfl : notice = .other := he
      rfl
    rw [hqueue] at hmarks
    rw [← hmarks]
    simp [marks, List.filterMap_append, hmark, Forwarder.carried]
  | send =>
    obtain ⟨hrx, hM, hmarks⟩ := h.forwarding
    refine .of_forwarder hrx hM rfl ?_
    rw [← hmarks]
    simp [Forwarder.carried]
  | read hqueue =>
    obtain ⟨f, hf, hrx, hmarks⟩ := h
    refine ⟨f, ?_, hrx, ?_⟩
    · rw [Multiset.coe_nil, add_zero]
      exact hf
    · rw [hqueue] at hmarks
      rw [← hmarks]
      simp

/-- In every run, what the consumer saw of the connections is a beginning of what was published. -/
theorem seen_published {p : Pool Shared Thread} (h : (client capacity).machine.Reachable p) :
    marks p.shared.seen <+: marks p.shared.published := by
  have hdelivered : Delivered p.shared p.threads := by
    refine Threads.invariant (fun _ _ ↦ True) (J := Delivered)
      ⟨.receiving, rfl, fun _ ↦ rfl, rfl⟩ ?_ ?_ (Threads.reachable_restricted h fun _ _ ↦ trivial)
    · rintro s M x ⟨f, hf, hrest⟩ hx
      refine ⟨f, ?_, hrest⟩
      rw [forwarder_cons ?_]
      · exact hf
      · have hentry : x.entry = true := hx
        revert hentry
        fun_cases Thread.entry x
        case case4 => rintro ⟨⟩
        all_goals exact fun _ ↦ rfl
    · intro s M x choice y s' new hd _ hact
      exact hd.flow (act_flows hact)
  obtain ⟨f, -, -, hmarks⟩ := hdelivered
  rw [← hmarks, marks_append]
  exact List.prefix_append _ _

end Delivery

/-- Whatever the interleaving, a run's connection events are framed if and only if every connection
it announces finds the closing events of the earlier ones forwarded. -/
theorem framed_iff_prompt (capacity : Nat) {turns : List (Turn Thread Choice)}
    {p : Pool Shared Thread}
    (hrun : (client capacity).machine.run (client capacity).machine.start turns = some p) :
    Framed p ↔ (client capacity).machine.runBy (Threads.permitted prompt)
      (client capacity).machine.start turns = some p := by
  have hseen : marks p.shared.seen <+: marks p.shared.published :=
    seen_published (.of_run .start hrun)
  have hiff : _ ↔ Bracketed (marks p.shared.published) :=
    Machine.runBy_iff (J := InOrder)
      (Q := fun p ↦ Bracketed (marks p.shared.published))
      (fun _ _ _ h hmay hstep ↦ h.step hmay hstep) (fun _ _ _ h hmay hstep ↦ h.early hmay hstep)
      (fun _ ⟨_, _, _, hown⟩ ↦ hown.framing.bracketed)
      (fun _ _ _ hstep hq ↦ hq.initial (published_grows hstep)) inOrder_init hrun
  rw [hiff]
  exact ⟨fun h ↦ h.1, fun h ↦ ⟨h, h.initial hseen⟩⟩

end Runs

-- A later `connect`, as thread `t`.
private def reconnected (t : Nat) : List (Turn Thread Choice) :=
  .start (.connect .borrowing) :: List.replicate 10 (.run t .go)

-- The forwarding task and the consumer of the client's events pass on and read `n` of them.
private def reads (n : Nat) : List (Turn Thread Choice) :=
  List.replicate (2 * n) (.run 2 .go) ++ [.start (.reader false), .run 3 .go] ++
    List.replicate n (.run 3 .go)

-- The peer closes the first connection, and the next one comes once that has been forwarded.
private def reconnects : List (Turn Thread Choice) :=
  List.flatten [connected 0, [.run 1 .closed], List.replicate 5 (.run 1 .go), reads 2,
    reconnected 4]

/-- A client that connects again once the closing event of its first connection is forwarded. -/
theorem framed_iff_prompt_of_reconnect :
    ∃ p, (client 4).machine.run (client 4).machine.start reconnects = some p ∧
      p.shared.seen = [⟨1, .connected⟩, ⟨1, .disconnected⟩] ∧
      p.shared.clientEvents = [⟨2, .connected⟩] ∧ Framed p := by
  have hby : (client 4).machine.runBy (Threads.permitted prompt) (client 4).machine.start
      reconnects = (client 4).machine.run (client 4).machine.start reconnects := rfl
  obtain ⟨p, hrun, hseen, hqueue⟩ :
      ∃ p, (client 4).machine.run (client 4).machine.start reconnects = some p ∧
        p.shared.seen = [⟨1, .connected⟩, ⟨1, .disconnected⟩] ∧
        p.shared.clientEvents = [⟨2, .connected⟩] := ⟨_, rfl, rfl, rfl⟩
  exact ⟨p, hrun, hseen, hqueue, (framed_iff_prompt 4 hrun).mpr (hby.trans hrun)⟩

/-- A client that disconnects and connects again before the consumer of the first connection has
run: its epoch filter drops the closing event, and the two `Connected` follow each other. -/
theorem reconnect_loses_disconnected :
    ∃ p, (client 4).machine.run (client 4).machine.start
        (List.flatten [connected 0, [.start (.disconnect false .borrowing)],
          List.replicate 7 (.run 3 .go), reconnected 4, [.run 1 .closed],
          List.replicate 4 (.run 1 .go), List.replicate 4 (.run 2 .go), [.start (.reader false)],
          List.replicate 3 (.run 6 .go)]) = some p ∧
      p.shared.seen = [⟨1, .connected⟩, ⟨2, .connected⟩] ∧
      .consumer 1 (.ended false) ∈ p.threads ∧ ¬ Framed p := by
  have hfirst : Framing [Mark.opened 1] [] (some 1) := Framing.nil.opening (by simp)
  exact ⟨_, rfl, rfl, by decide, fun h ↦ hfirst.not_bracketed 2 h.1⟩

end MsgTrans.Client.Connection
