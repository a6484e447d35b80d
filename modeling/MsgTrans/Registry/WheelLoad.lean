import MsgTrans.Registry.WheelExact

/-!
# Request registry: how many keys are on the timeout wheel

`register_impl`, `scan_timeout_bucket` and `schedule_for_deadline`,
`crates/msgtrans/src/transport/request_registry.rs:503–586,935–999`, in runs of operations made one
at a time, at any pace. Resolving a request leaves its key on the wheel; a scan that finds the key
in its bucket drops it, unless the id was used again and the newer registration is pending and not
yet due. Then the key is scheduled once more, and the wheel holds it twice.
-/

namespace MsgTrans.Registry

open MsgTrans.Base MsgTrans.Base.Prog MsgTrans.Wire

/-- All keys on the wheel. -/
def State.wheel (cfg : RegistryConfig) (s : State) : List RequestKey :=
  (List.range cfg.bucketCount).flatMap s.buckets

/-- The registration a key is scheduled for: the one found under it. -/
def State.owner (s : State) (key : RequestKey) : RequestToken :=
  ((s.entries.lookup key).map RequestEntry.token).getD
    ⟨key.sessionId, key.requestId, key.direction, 0⟩

/-- An inbound registration that was accepted, and how many scans there were when it was found no
longer pending. -/
structure Record where
  token : RequestToken
  resolved : Option Nat
  deriving DecidableEq, Repr

/-- A record after an operation. -/
def Record.settle (s : State) (scans : Nat) (r : Record) : Record where
  token := r.token
  resolved := r.resolved.or (if s.cells r.token = some .pending then none else some scans)

/-- A registry whose operations are made one at a time, for which registration each key on its
wheel was scheduled, its accepted inbound registrations, and how many scans there were. -/
structure Load where
  registry : State
  listed : Nat → List RequestToken
  records : List Record
  scans : Nat

namespace Load

variable (cfg : RegistryConfig)

/-- The registry when an operation begins. -/
def begins (w : Load) (turn : Turn) : State :=
  { w.registry with clock := w.registry.clock + turn.pause }

/-- What an operation does, from its begin to its end. -/
def ran (w : Load) (turn : Turn) : Log Act Act.Resp × Outcome × State :=
  (turn.op.body cfg).solo (Act.exec cfg 0) turn.choices (w.begins turn)

/-- What the operation's answer adds to the accepted registrations. -/
def accepted : Op → Outcome → List Record
  | .register .., .token (some token) => [⟨token, none⟩]
  | _, _ => []

/-- The scans there were after an operation. -/
def scansAfter (w : Load) (turn : Turn) : Nat :=
  if turn.op = .scanTimeoutBucket then w.scans + 1 else w.scans

/-- Operations made one at a time. -/
def machine : Machine Load Turn where
  start := ⟨.new, fun _ ↦ [], [], 0⟩
  step := fun w turn ↦
    let after := w.ran cfg turn
    some
      { registry := after.2.2
        listed := Move.run w.listed ((movesOf after.1).map (Move.map after.2.2.owner))
        records := (accepted turn.op after.2.1 ++ w.records).map
          (Record.settle after.2.2 (w.scansAfter turn))
        scans := w.scansAfter turn }

/-- The registrations that are pending, or were resolved within the last so many scans as there
are buckets. -/
def recent (w : Load) : List Record :=
  w.records.filter fun r ↦ ∀ resolved ∈ r.resolved, w.scans < resolved + cfg.bucketCount

/-- A scan does not bring the tick counter to zero, or its buckets keep their order when it does.
A key it drains was not left by a resolved registration, if another one of this key is pending and
not due at the clock the scan reads. -/
def Clean (w : Load) (turn : Turn) : Prop :=
  turn.op = .scanTimeoutBucket →
    (cfg.bucketCount ∣ 2 ^ 64 ∨ w.scans + 1 < 2 ^ 64) ∧
    ∀ token ∈ w.listed ((w.scans + 1) % cfg.bucketCount),
      ∀ entry ∈ w.registry.entries.lookup token.key,
        w.registry.cells entry.token = some .pending →
        ∀ now ∈ (readings (w.ran cfg turn).1).head?, now < entry.deadlineAt → entry.token = token

instance (w : Load) (turn : Turn) : Decidable (w.Clean cfg turn) :=
  inferInstanceAs (Decidable (_ → _ ∧ ∀ token ∈ w.listed _, ∀ entry ∈ w.registry.entries.lookup _,
    _ → ∀ now ∈ (readings _).head?, _ → _))

end Load

section Operations

variable {cfg : RegistryConfig} {call : Nat} {s s' : State} {log : Log Act Act.Resp}
  {key : RequestKey} {keys : List RequestKey} {now : Instant} {moves : List (Move RequestKey)}

theorem State.Keyed.key_owner (hs : s.Keyed) (key : RequestKey) : (s.owner key).key = key := by
  unfold State.owner
  cases hfound : s.entries.lookup key with
  | none =>
    rw [Option.map_none, Option.getD_none]
    cases key with
    | mk sid id direction => cases direction <;> rfl
  | some entry =>
    rw [Option.map_some, Option.getD_some, RequestEntry.key_token]
    exact hs key entry hfound

theorem State.owner_of_lookup {entry : RequestEntry} (h : s.entries.lookup key = some entry) :
    s.owner key = entry.token := by
  rw [State.owner, h, Option.map_some, Option.getD_some]

/-- The wheel after one action. -/
theorem Act.exec_buckets {choice : Nat} {a : Act} (r : a.Resp) :
    (a.exec cfg call choice s).2.buckets = Move.run s.buckets (moveOf ⟨a, r⟩).toList := by
  cases a with
  | entriesInsert entry =>
    simp only [exec, State.entriesInsert]
    split <;> rfl
  | entriesRemove caller key =>
    simp only [exec, State.entriesRemove]
    split <;> rfl
  | tryTransition caller token source target =>
    simp only [exec, State.tryTransition]
    repeat' split
    all_goals rfl
  | channelDrop channel =>
    simp only [exec, State.channelDrop]
    split <;> rfl
  | sessionsOrInsert sid =>
    simp only [exec, State.sessionsOrInsert]
    split <;> rfl
  | nextRequestIdFetchUpdate rt =>
    simp only [exec, State.nextRequestIdFetchUpdate]
    split <;> rfl
  | _ => rfl

/-- The wheel after an operation. -/
theorem buckets_solo {α : Type} {p : Task α} {v : α} (h : Solo (Act.exec cfg call) p s log v s') :
    s'.buckets = Move.run s.buckets (movesOf log) := by
  induction h with
  | ret => rfl
  | @act a k s s' log v choice h ih =>
    rw [ih, Act.exec_buckets (a.exec cfg call choice s).1]
    show _ = Move.run s.buckets (List.filterMap moveOf (_ :: log))
    cases hmove : moveOf ⟨a, (a.exec cfg call choice s).1⟩ with
    | none =>
      rw [List.filterMap_cons_none hmove]
      rfl
    | some move =>
      rw [List.filterMap_cons_some hmove]
      rfl

theorem scheduleForDeadline_moves {deadlineAt : Instant} {v : Unit}
    (h : Solo (Act.exec cfg call) (scheduleForDeadline cfg key deadlineAt) s log v s') :
    ∃ i, movesOf log = [.put i key] := by
  simp only [scheduleForDeadline, perform_bind] at h
  obtain ⟨choice, log₁, h₁, rfl⟩ := h.of_act
  obtain ⟨choice₂, log₂, h₂, rfl⟩ := h₁.of_act
  obtain ⟨choice₃, log₃, h₃, rfl⟩ := h₂.of_act
  obtain ⟨-, -, rfl⟩ := h₃.of_ret
  exact ⟨_, rfl⟩

/-- A scan puts back some of the keys it drained, each for a registration that is pending and not
due. -/
theorem scanKeys_moves {n m : Nat}
    (h : Solo (Act.exec cfg call) (scanKeys cfg now keys n) s log m s') (hs : s.Keyed)
    (hin : ∀ key ∈ keys, key.direction = .inbound) :
    Calm s s' ∧ Expires now s s' ∧ (Move.items (movesOf log)).Sublist keys ∧
      ∀ key ∈ Move.items (movesOf log), ∃ entry, s'.Pending key entry ∧ now < entry.deadlineAt := by
  induction keys generalizing s log n with
  | nil =>
    obtain ⟨-, rfl, rfl⟩ := h.of_ret
    exact ⟨.refl s', .refl now s', .refl [], nofun⟩
  | cons key keys ih =>
    obtain ⟨n', s₁, moves, log₁, hlooked, hrest, hmoves⟩ := scanKeys_cons h
    obtain ⟨hcalm, hexpires⟩ := hlooked.calm hs
    obtain ⟨hcalm', hexpires', hsub, hput⟩ := ih hrest (hcalm.keyed hs)
      fun key hkey ↦ hin key (List.mem_cons_of_mem _ hkey)
    rw [hmoves, Move.items_append]
    refine ⟨hcalm.trans hcalm', hexpires.trans hexpires', ?_⟩
    cases hlooked with
    | skipped => exact ⟨hsub.cons key, hput⟩
    | due => exact ⟨hsub.cons key, hput⟩
    | again hfound hcell hdue hrun =>
      obtain ⟨i, hi⟩ := scheduleForDeadline_moves hrun
      rw [hi]
      refine ⟨hsub.cons_cons key, fun key' hkey' ↦ ?_⟩
      obtain rfl | hkey' := List.mem_cons.mp hkey'
      · have hp : s.Pending key' _ := ⟨hin key' List.mem_cons_self, hfound, hcell⟩
        obtain hp' | ⟨-, hpast⟩ := (hexpires.trans hexpires').fate key' _ hp
        · exact ⟨_, hp', hdue⟩
        · exact absurd hdue (not_lt.mpr hpast)
      · exact hput key' hkey'

/-- What a scan does to the wheel: it drains the next bucket, and puts keys back for registrations
that are pending and not due. -/
structure Sifted (cfg : RegistryConfig) (s : State) (log : Log Act Act.Resp) (s' : State)
    (puts : List (Move RequestKey)) : Prop where
  moves : movesOf log = .drain ((s.currentTick + 1) % 2 ^ 64 % cfg.bucketCount) :: puts
  sub : (Move.items puts).Sublist (s.buckets ((s.currentTick + 1) % 2 ^ 64 % cfg.bucketCount))
  put : ∀ key ∈ Move.items puts, ∃ entry, s'.Pending key entry ∧
    ∃ now ∈ (readings log).head?, now < entry.deadlineAt
  tick : s'.currentTick = (s.currentTick + 1) % 2 ^ 64
  keyed : s'.Keyed
  generation : s.nextGeneration ≤ s'.nextGeneration
  entries : ∀ key entry, key.direction = .inbound → s'.entries.lookup key = some entry →
    s.entries.lookup key = some entry
  cells : ∀ token, token.direction = .inbound → s'.cells token = some .pending →
    s.cells token = some .pending

theorem scanTimeoutBucket_moves {n : Nat}
    (h : Solo (Act.exec cfg call) (scanTimeoutBucket cfg) s log n s') (hs : s.Keyed)
    (hin : ∀ i, ∀ key ∈ s.buckets i, key.direction = .inbound) :
    ∃ puts, Sifted cfg s log s' puts := by
  simp only [scanTimeoutBucket, perform_bind] at h
  obtain ⟨choice, log₁, h₁, rfl⟩ := h.of_act
  obtain ⟨choice₂, log₂, h₂, rfl⟩ := h₁.of_act
  clear h h₁
  split at h₂
  next hempty =>
    obtain ⟨-, rfl, rfl⟩ := h₂.of_ret
    exact ⟨[], rfl, List.nil_sublist _, fun _ hnil ↦ absurd hnil List.not_mem_nil, rfl, hs, le_rfl,
      fun _ _ _ h ↦ h, fun _ _ h ↦ h⟩
  next =>
    obtain ⟨choice₃, log₃, h₃, rfl⟩ := h₂.of_act
    obtain ⟨hcalm, -, hsub, hput⟩ := scanKeys_moves h₃ hs (hin _)
    refine ⟨movesOf log₃, rfl, hsub, fun key hkey ↦ ?_, hcalm.tick, hcalm.keyed hs, hcalm.generation,
      hcalm.entries, hcalm.cells⟩
    obtain ⟨entry, hp, hdue⟩ := hput key hkey
    exact ⟨entry, hp, _, rfl, hdue⟩

/-- What an accepted registration does to the wheel: it puts its key there, under a new token. -/
structure Enrolled (s s' : State) (puts : List (Move RequestKey)) (token : RequestToken) :
    Prop where
  moves : ∃ i, puts = [.put i token.key]
  inbound : token.direction = .inbound
  new : token.generation = s.nextGeneration
  generation : s.nextGeneration < s'.nextGeneration
  owner : s'.owner token.key = token
  tick : s'.currentTick = s.currentTick
  keyed : s'.Keyed
  cells : ∀ token', token'.direction = .inbound → token' ≠ token →
    s'.cells token' = some .pending → s.cells token' = some .pending

theorem Registered.enrolled {timeout : Duration} {token : RequestToken}
    (h : Registered cfg call key timeout s moves (some token) s') (hs : s.Keyed)
    (hin : key.direction = .inbound) : Enrolled s s' moves token := by
  cases h with
  | @accepted entry s₁ s₂ _ log hkey hgeneration hcalm hlt hvacant hcreated hdeadline hcalm'
      hentries hcells hrun =>
    simp only [State.entriesInsert, hvacant] at hcalm' hentries hcells
    obtain ⟨hscheduled, hcells', hentries', -⟩ := scheduleForDeadline_solo hrun
    have hfound : s'.entries.lookup entry.key = some entry := by
      rw [hentries', hentries]
      exact AList.lookup_insert _
    refine ⟨?_, ?_, hgeneration, ?_, ?_, ?_, ?_, fun token' hin' hne hpending ↦ ?_⟩
    · rw [RequestEntry.key_token]
      exact scheduleForDeadline_moves hrun
    · rw [RequestEntry.token, hkey]
      exact hin
    · exact lt_of_lt_of_le hlt (le_trans hcalm'.generation hscheduled.generation)
    · rw [RequestEntry.key_token]
      exact State.owner_of_lookup hfound
    · exact (hscheduled.tick.trans hcalm'.tick).trans hcalm.tick
    · refine hscheduled.keyed (hcalm'.keyed fun _ _ hl ↦ ?_)
      exact (hcalm.keyed hs).insert entry hl
    · rw [hcells', hcells] at hpending
      exact hcalm.cells token' hin' ((Function.update_of_ne hne _ _).symm.trans hpending)

end Operations

namespace Load

variable {cfg : RegistryConfig}

/-- What holds between operations: every key was scheduled for one registration, which has a record
and has no other key on the wheel, and its bucket had no turn since it was resolved. -/
structure Inv (cfg : RegistryConfig) (w : Load) : Prop where
  keyed : w.registry.Keyed
  keys : (fun i ↦ (w.listed i).map RequestToken.key) = w.registry.buckets
  tick : w.registry.currentTick = w.scans % 2 ^ 64
  range : cfg.bucketCount ∣ 2 ^ 64 ∨ w.scans < 2 ^ 64
  once : Once w.listed
  owned : ∀ i, ∀ token ∈ w.listed i, ∃ r ∈ w.records, r.token = token ∧
    ∀ resolved ∈ r.resolved, ∀ j, resolved < j → j ≤ w.scans → j % cfg.bucketCount ≠ i
  generation : ∀ r ∈ w.records, r.token.generation < w.registry.nextGeneration
  inbound : ∀ r ∈ w.records, r.token.direction = .inbound
  resolved : ∀ r ∈ w.records, r.resolved.isSome → w.registry.cells r.token ≠ some .pending

theorem Inv.start : Inv cfg (machine cfg).start where
  keyed _ _ h := absurd h (by simp [machine, State.new, AList.lookup_empty])
  keys := rfl
  tick := rfl
  range := .inr (Nat.two_pow_pos 64)
  once := ⟨fun _ ↦ List.nodup_nil, nofun⟩
  owned := nofun
  generation := nofun
  inbound := nofun
  resolved := nofun

section Step

variable {w : Load} {turn : Turn} {s' : State} {moves : List (Move RequestKey)}

/-- Records may be brought up to date. -/
theorem Inv.settle (hi : Inv cfg w) :
    Inv cfg { w with records := w.records.map (Record.settle w.registry w.scans) } where
  keyed := hi.keyed
  keys := hi.keys
  tick := hi.tick
  range := hi.range
  once := hi.once
  owned i token htoken := by
    obtain ⟨r, hr, htokens, hturns⟩ := hi.owned i token htoken
    refine ⟨_, List.mem_map_of_mem hr, htokens, fun resolved hresolved j hlt hle ↦ ?_⟩
    obtain hold | ⟨-, hnew⟩ := Option.or_eq_some_iff.mp hresolved
    · exact hturns resolved hold j hlt hle
    · split at hnew
      next => cases hnew
      next =>
        cases hnew
        exact absurd hlt (not_lt.mpr hle)
  generation := List.forall_mem_map.mpr hi.generation
  inbound := List.forall_mem_map.mpr hi.inbound
  resolved := by
    refine List.forall_mem_map.mpr fun r hr hresolved hpending ↦ ?_
    have hpending : w.registry.cells r.token = some .pending := hpending
    rw [Record.settle, if_pos hpending, Option.or_none] at hresolved
    exact hi.resolved r hr hresolved hpending

/-- The keys on the wheel after changes, for the registrations found under them. -/
theorem Inv.keys_run (hi : Inv cfg w) (hkeyed : s'.Keyed)
    (hbuckets : s'.buckets = Move.run w.registry.buckets moves) :
    (fun i ↦ (Move.run w.listed (moves.map (Move.map s'.owner)) i).map RequestToken.key) =
      s'.buckets := by
  have hmoves : (moves.map (Move.map s'.owner)).map (Move.map RequestToken.key) = moves := by
    rw [List.map_map]
    refine List.map_id'' (fun move ↦ ?_) moves
    cases move with
    | drain i => rfl
    | put i key => exact congrArg (Move.put i) (hkeyed.key_owner key)
  rw [← Move.run_map, hmoves, hi.keys, hbuckets]

/-- An operation that leaves the wheel alone. -/
theorem Inv.calm (hi : Inv cfg w) (hcalm : Calm w.registry s')
    (hbuckets : s'.buckets = w.registry.buckets) : Inv cfg { w with registry := s' } where
  keyed := hcalm.keyed hi.keyed
  keys := hi.keys.trans hbuckets.symm
  tick := hcalm.tick.trans hi.tick
  range := hi.range
  once := hi.once
  owned := hi.owned
  generation r hr := lt_of_lt_of_le (hi.generation r hr) hcalm.generation
  inbound := hi.inbound
  resolved r hr hresolved hpending :=
    hi.resolved r hr hresolved (hcalm.cells r.token (hi.inbound r hr) hpending)

/-- An accepted registration. -/
theorem Inv.enroll (hi : Inv cfg w) {token : RequestToken}
    (h : Enrolled w.registry s' moves token)
    (hbuckets : s'.buckets = Move.run w.registry.buckets moves) :
    Inv cfg ⟨s', Move.run w.listed (moves.map (Move.map s'.owner)), ⟨token, none⟩ :: w.records,
      w.scans⟩ := by
  have hnew : ∀ r ∈ w.records, r.token ≠ token := by
    rintro r hr rfl
    exact absurd (hi.generation r hr) (h.new ▸ lt_irrefl _)
  have hitems : Move.items (moves.map (Move.map s'.owner)) = [token] := by
    obtain ⟨i, rfl⟩ := h.moves
    exact congrArg (fun token ↦ [token]) h.owner
  refine ⟨h.keyed, hi.keys_run h.keyed hbuckets, h.tick.trans hi.tick, hi.range, ?_, ?_, ?_, ?_, ?_⟩
  · refine hi.once.run (hitems ▸ List.nodup_singleton token) fun token' htoken' i hlisted ↦ ?_
    rw [hitems, List.mem_singleton] at htoken'
    obtain ⟨r, hr, htokens, -⟩ := hi.owned i token' hlisted
    exact hnew r hr (htokens.trans htoken')
  · intro i token' htoken'
    obtain hlisted | hput := Move.mem_run htoken'
    · obtain ⟨r, hr, hturns⟩ := hi.owned i token' hlisted
      exact ⟨r, List.mem_cons_of_mem _ hr, hturns⟩
    · rw [hitems, List.mem_singleton] at hput
      exact ⟨⟨token, none⟩, List.mem_cons_self, hput.symm, nofun⟩
  · rintro r (_ | ⟨_, hr⟩)
    · exact h.new ▸ h.generation
    · exact lt_trans (hi.generation r hr) h.generation
  · rintro r (_ | ⟨_, hr⟩)
    · exact h.inbound
    · exact hi.inbound r hr
  · rintro r (_ | ⟨_, hr⟩) hresolved hpending
    · cases hresolved
    · exact hi.resolved r hr hresolved (h.cells r.token (hi.inbound r hr) (hnew r hr) hpending)

/-- The bucket of the next scan. -/
theorem Inv.next (hi : Inv cfg w) (hrange : cfg.bucketCount ∣ 2 ^ 64 ∨ w.scans + 1 < 2 ^ 64) :
    (w.registry.currentTick + 1) % 2 ^ 64 % cfg.bucketCount = (w.scans + 1) % cfg.bucketCount := by
  rw [hi.tick, Nat.mod_add_mod]
  obtain hdvd | hlt := hrange
  · exact Nat.mod_mod_of_dvd _ hdvd
  · rw [Nat.mod_eq_of_lt hlt]

/-- What a clean scan puts back are keys it drained, for the registrations they were scheduled for. -/
theorem Inv.sub_of_clean (hi : Inv cfg w) {log : Log Act Act.Resp} {i : Nat}
    (hput : ∀ key ∈ Move.items moves, ∃ entry, s'.Pending key entry ∧
      w.registry.Pending key entry ∧ ∃ now ∈ (readings log).head?, now < entry.deadlineAt)
    (hclean : ∀ token ∈ w.listed i, ∀ entry ∈ w.registry.entries.lookup token.key,
      w.registry.cells entry.token = some .pending →
      ∀ now ∈ (readings log).head?, now < entry.deadlineAt → entry.token = token)
    (hsub : (Move.items moves).Sublist (w.registry.buckets i)) :
    (Move.items (moves.map (Move.map s'.owner))).Sublist (w.listed i) := by
  rw [← hi.keys] at hsub
  obtain ⟨tokens, htokens, hitems⟩ := List.sublist_map_iff.mp hsub
  have hown : ∀ token ∈ tokens, s'.owner token.key = token := by
    intro token htoken
    obtain ⟨entry, ⟨-, hfound', -⟩, ⟨-, hfound, hcell⟩, now, hnow, hdue⟩ :=
      hput token.key (hitems ▸ List.mem_map_of_mem htoken)
    rw [State.owner_of_lookup hfound']
    exact hclean token (htokens.mem htoken) entry hfound hcell now hnow hdue
  have hsame : tokens.map (s'.owner ∘ RequestToken.key) = tokens :=
    (List.map_congr_left hown).trans (List.map_id' tokens)
  rw [Move.items_map, hitems, List.map_map, hsame]
  exact htokens

/-- A clean scan. -/
theorem Inv.scan (hi : Inv cfg w) {log : Log Act Act.Resp}
    (h : Sifted cfg w.registry log s' moves)
    (hbuckets : s'.buckets = Move.run w.registry.buckets (movesOf log))
    (hrange : cfg.bucketCount ∣ 2 ^ 64 ∨ w.scans + 1 < 2 ^ 64)
    (hclean : ∀ token ∈ w.listed ((w.scans + 1) % cfg.bucketCount),
      ∀ entry ∈ w.registry.entries.lookup token.key,
        w.registry.cells entry.token = some .pending →
        ∀ now ∈ (readings log).head?, now < entry.deadlineAt → entry.token = token) :
    Inv cfg ⟨s', Move.run w.listed ((movesOf log).map (Move.map s'.owner)), w.records,
      w.scans + 1⟩ := by
  have hbefore : ∀ {key entry}, s'.Pending key entry → w.registry.Pending key entry := by
    intro key entry hp
    have hfound := h.entries key entry hp.1 hp.2.1
    refine ⟨hp.1, hfound, h.cells entry.token ?_ hp.2.2⟩
    rw [RequestEntry.token, hi.keyed key entry hfound]
    exact hp.1
  have hdrained := h.moves
  have hsub := h.sub
  rw [hi.next hrange] at hdrained hsub
  generalize hslot : (w.scans + 1) % cfg.bucketCount = slot at hdrained hsub hclean
  have hback : (Move.items (moves.map (Move.map s'.owner))).Sublist (w.listed slot) := by
    refine hi.sub_of_clean (fun key hkey ↦ ?_) hclean hsub
    obtain ⟨entry, hp, hdue⟩ := h.put key hkey
    exact ⟨entry, hp, hbefore hp, hdue⟩
  refine ⟨h.keyed, hi.keys_run h.keyed hbuckets, ?_, hrange, ?_, ?_, ?_, hi.inbound, ?_⟩
  · show s'.currentTick = _
    rw [h.tick, hi.tick, Nat.mod_add_mod]
  · rw [hdrained, List.map_cons, Move.run_cons]
    refine (hi.once.drain slot).run (hback.nodup (hi.once.nodup slot)) fun token htoken j ↦ ?_
    exact hi.once.not_mem_drain (hback.mem htoken) j
  · intro i token htoken
    show ∃ r ∈ w.records, _
    rw [hdrained, List.map_cons, Move.run_cons] at htoken
    obtain hlisted | hput := Move.mem_run htoken
    · have hne : slot ≠ i := by
        rintro rfl
        have hlisted' := (Move.mem_apply hlisted).resolve_right List.not_mem_nil
        exact hi.once.not_mem_drain hlisted' slot hlisted
      obtain ⟨r, hr, htokens, hturns⟩ :=
        hi.owned i token ((Move.mem_apply hlisted).resolve_right List.not_mem_nil)
      refine ⟨r, hr, htokens, fun resolved hresolved j hlt hle ↦ ?_⟩
      obtain hle | rfl := Nat.le_succ_iff.mp hle
      · exact hturns resolved hresolved j hlt hle
      · exact hslot ▸ hne
    · obtain ⟨r, hr, htokens, -⟩ := hi.owned slot token (hback.mem hput)
      refine ⟨r, hr, htokens, fun resolved hresolved ↦ absurd ?_ (hi.resolved r hr ?_)⟩
      · rw [Move.items_map] at hput
        obtain ⟨key, hkey, howner⟩ := List.mem_map.mp hput
        obtain ⟨entry, hp, -⟩ := h.put key hkey
        rw [htokens, ← howner, State.owner_of_lookup hp.2.1]
        exact (hbefore hp).2.2
      · exact Option.isSome_of_mem hresolved
  · exact fun r hr ↦ lt_of_lt_of_le (hi.generation r hr) h.generation
  · exact fun r hr hresolved hpending ↦
      hi.resolved r hr hresolved (h.cells r.token (hi.inbound r hr) hpending)

theorem accepted_eq_nil {o : Op} {v : Outcome}
    (h : ∀ id sid bizType timeout, o ≠ .register id sid bizType timeout) : accepted o v = [] := by
  unfold accepted
  split
  next => exact absurd rfl (h _ _ _ _)
  next => rfl

/-- A clean operation, before the records are brought up to date. -/
theorem Inv.ran (hi : Inv cfg w) (hclean : w.Clean cfg turn) :
    Inv cfg ⟨(w.ran cfg turn).2.2,
      Move.run w.listed ((movesOf (w.ran cfg turn).1).map (Move.map (w.ran cfg turn).2.2.owner)),
      accepted turn.op (w.ran cfg turn).2.1 ++ w.records, w.scansAfter turn⟩ := by
  have hbegins : Calm w.registry (w.begins turn) :=
    ⟨rfl, Nat.le_add_right _ _, fun _ ↦ List.Subset.refl _, fun _ _ _ h ↦ h, fun _ _ h ↦ h, le_rfl,
      id⟩
  have hsolo : Solo (Act.exec cfg 0) (turn.op.body cfg) (w.begins turn) (w.ran cfg turn).1
      (w.ran cfg turn).2.1 (w.ran cfg turn).2.2 := solo_spec _ _ _
  have hbuckets := buckets_solo hsolo
  change _ = Move.run w.registry.buckets _ at hbuckets
  unfold Clean at hclean
  generalize w.ran cfg turn = after at hclean hsolo hbuckets ⊢
  obtain ⟨log, v, s'⟩ := after
  dsimp only at hclean hsolo hbuckets ⊢
  by_cases hscan : turn.op = .scanTimeoutBucket
  · obtain ⟨hrange, hclean⟩ := hclean hscan
    rw [hscan] at hsolo
    obtain ⟨n, s₁, log₁, log₂, h₁, h₂, rfl⟩ := hsolo.of_bind
    obtain ⟨-, rfl, rfl⟩ := h₂.of_ret
    have hin : ∀ i, ∀ key ∈ w.registry.buckets i, key.direction = .inbound := by
      intro i key hkey
      rw [← hi.keys] at hkey
      obtain ⟨token, htoken, rfl⟩ := List.mem_map.mp hkey
      obtain ⟨r, hr, rfl, -⟩ := hi.owned i token htoken
      exact (RequestToken.direction_key _).trans (hi.inbound r hr)
    obtain ⟨puts, hsifted⟩ := scanTimeoutBucket_moves h₁ hi.keyed hin
    rw [List.append_nil] at hclean hbuckets ⊢
    rw [accepted_eq_nil (by rw [hscan]; nofun), scansAfter, if_pos hscan]
    exact hi.scan ⟨hsifted.moves, hsifted.sub, hsifted.put, hsifted.tick, hsifted.keyed,
      hsifted.generation, hsifted.entries, hsifted.cells⟩ hbuckets hrange hclean
  · rw [scansAfter, if_neg hscan]
    by_cases hregister : ∃ id sid bizType timeout, turn.op = .register id sid bizType timeout
    · obtain ⟨id, sid, bizType, timeout, hop⟩ := hregister
      rw [hop] at hsolo ⊢
      obtain ⟨token, s₁, log₁, log₂, h₁, h₂, rfl⟩ := hsolo.of_bind
      obtain ⟨rfl, rfl, rfl⟩ := h₂.of_ret
      rw [List.append_nil] at hbuckets ⊢
      have hcases := register_cases h₁
      cases token with
      | some token =>
        have henrolled := hcases.enrolled hi.keyed rfl
        exact hi.enroll ⟨henrolled.moves, henrolled.inbound, henrolled.new, henrolled.generation,
          henrolled.owner, henrolled.tick, henrolled.keyed, henrolled.cells⟩ hbuckets
      | none =>
        generalize movesOf log₁ = moves at hcases hbuckets
        cases hcases with
        | refused hcalm => exact hi.calm (hbegins.trans hcalm) hbuckets
    · push Not at hregister
      have hwithout : (turn.op.body cfg).Without Act.moves := Op.body_without hregister hscan
      have hcalm := solo_calm hsolo (hwithout.imp fun _ ↦ Act.stirs_of_moves)
      rw [movesOf_eq_nil hsolo hwithout] at hbuckets ⊢
      rw [accepted_eq_nil hregister]
      exact hi.calm (hbegins.trans hcalm) hbuckets

theorem Inv.step {w' : Load} (hi : Inv cfg w) (hclean : w.Clean cfg turn)
    (h : (machine cfg).step w turn = some w') : Inv cfg w' := by
  cases h
  exact (hi.ran hclean).settle

end Step

/-- In every run whose scans are clean. -/
theorem inv_of_reachable {w : Load} (h : (machine cfg).ReachableBy (Clean cfg) w) : Inv cfg w :=
  h.invariant Inv.start fun _ _ _ hi hclean hstep ↦ hi.step hclean hstep

/-- A key on the wheel was scheduled for a recent registration. -/
theorem Inv.recent (hi : Inv cfg w) {i : Nat} (hbucket : i < cfg.bucketCount)
    {token : RequestToken} (htoken : token ∈ w.listed i) :
    token ∈ (w.recent cfg).map Record.token := by
  obtain ⟨r, hr, rfl, hturns⟩ := hi.owned i token htoken
  refine List.mem_map_of_mem (List.mem_filter.mpr ⟨hr, decide_eq_true fun resolved hresolved ↦ ?_⟩)
  exact lt_add_of_no_turn hbucket (hturns resolved hresolved)

/-- In every run whose scans are clean, a key is on the wheel no more often than it has recent
registrations, and the wheel holds no more keys than there are recent registrations. -/
theorem wheel_bounded_of_clean {cfg : RegistryConfig} {w : Load}
    (h : (machine cfg).ReachableBy (Clean cfg) w) :
    (∀ key, (w.registry.wheel cfg).count key ≤ (w.recent cfg).countP (·.token.key = key)) ∧
      (w.registry.wheel cfg).length ≤ (w.recent cfg).length := by
  have hi := inv_of_reachable h
  have hwheel : w.registry.wheel cfg =
      ((List.range cfg.bucketCount).flatMap w.listed).map RequestToken.key := by
    rw [State.wheel, ← hi.keys, List.map_flatMap]
  obtain ⟨tokens, hperm, hsub⟩ : ((List.range cfg.bucketCount).flatMap w.listed).Subperm
      ((w.recent cfg).map Record.token) := by
    refine (hi.once.nodup_total _).subperm fun token htoken ↦ ?_
    obtain ⟨i, hbucket, hlisted⟩ := List.mem_flatMap.mp htoken
    exact hi.recent (List.mem_range.mp hbucket) hlisted
  have hkeys : (w.registry.wheel cfg).Subperm ((w.recent cfg).map fun r ↦ r.token.key) := by
    rw [hwheel]
    refine ⟨tokens.map RequestToken.key, hperm.map _, ?_⟩
    have hmap := hsub.map RequestToken.key
    rwa [List.map_map] at hmap
  refine ⟨fun key ↦ ?_, ?_⟩
  · refine le_trans (hkeys.count_le key) (le_of_eq ?_)
    rw [List.count, List.countP_map]
    rfl
  · exact le_trans hkeys.length_le (le_of_eq (List.length_map _))

/-- The registry with the smallest wheel. -/
def smallWheel : RegistryConfig := .newWithTiming 8 defaultTimeoutTick

/-- An inbound request with the longest usual timeout, answered at once. -/
def answered (generation : Nat) : List Turn :=
  [Wheel.request requestLifecycleTimeout,
    ⟨0, .beginRespond ⟨none, 1, .inbound, generation⟩, []⟩,
    ⟨0, .finishRespond ⟨none, 1, .inbound, generation⟩ true, []⟩]

/-- An id is used again after the wheel made a round. -/
theorem wheel_bounded_of_clean_of_round : ∃ w, (machine smallWheel).runBy (Clean smallWheel)
      (machine smallWheel).start
      (answered 1 ++ List.replicate 8 Wheel.nextScan ++ answered 2) = some w ∧
    w.registry.wheel smallWheel = [.inbound none 1] ∧
    (w.registry.wheel smallWheel).count (.inbound none 1) ≤
      (w.recent smallWheel).countP (·.token.key = .inbound none 1) := by
  have hrun : ((machine smallWheel).runBy (Clean smallWheel) (machine smallWheel).start
      (answered 1 ++ List.replicate 8 Wheel.nextScan ++ answered 2)).map
        (fun w ↦ w.registry.wheel smallWheel) = some [.inbound none 1] := by decide +kernel
  obtain ⟨w, hw, hwheel⟩ := Option.map_eq_some_iff.mp hrun
  exact ⟨w, hw, hwheel, (wheel_bounded_of_clean (.of_runBy .start hw)).1 _⟩

/-- An id is used again at once, with a timeout of many rounds: after two rounds the wheel still holds
its key twice, though the first registration was resolved before them and only the second is left. -/
theorem reused_key_stays : ¬∀ (cfg : RegistryConfig) (w : Load), (machine cfg).Reachable w →
    ∀ key, (w.registry.wheel cfg).count key ≤ (w.recent cfg).countP (·.token.key = key) := by
  intro h
  have hrun : ((machine smallWheel).run (machine smallWheel).start
      (answered 1 ++ [Wheel.request requestLifecycleTimeout] ++ List.replicate 16 Wheel.nextScan)).map
        (fun w ↦ ((w.registry.wheel smallWheel).count (.inbound none 1),
          (w.recent smallWheel).countP (·.token.key = .inbound none 1))) = some (2, 1) := by
    decide +kernel
  obtain ⟨w, hw, heq⟩ := Option.map_eq_some_iff.mp hrun
  obtain ⟨hcount, hrecent⟩ := Prod.mk.inj heq
  have hle := h smallWheel w (Machine.Reachable.of_run .start hw) (.inbound none 1)
  rw [hcount, hrecent] at hle
  exact absurd hle (by decide)

end Load

end MsgTrans.Registry
