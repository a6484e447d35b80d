import MsgTrans.Registry.View

/-!
# Request registry: renamed generations

The generations that `crates/msgtrans/src/transport/request_registry.rs:486–496` hands out are
names: what the view of a registry does to a slot is the same under every renaming of them.
-/

namespace MsgTrans.Registry

/-- The token of the renamed generation. -/
def RequestToken.rename (ρ : Nat ↪ Nat) (token : RequestToken) : RequestToken :=
  { token with generation := ρ token.generation }

/-- The entry of the renamed generation. -/
def RequestEntry.rename (ρ : Nat ↪ Nat) (entry : RequestEntry) : RequestEntry :=
  { entry with generation := ρ entry.generation }

/-- The slot with the generations of its entry and of its waiter renamed. -/
def Slot.rename (ρ : Nat ↪ Nat) (slot : Slot) : Slot :=
  { slot with entry := slot.entry.map (·.rename ρ), waiter := slot.waiter.map ρ }

/-- The operation by the holder of the renamed token. -/
def Op.rename (ρ : Nat ↪ Nat) : Op → Op
  | .beginRespond token => .beginRespond (token.rename ρ)
  | .finishRespond token confirmed => .finishRespond (token.rename ρ) confirmed
  | .abortRequestToken token => .abortRequestToken (token.rename ρ)
  | o => o

def Deed.rename (ρ : Nat ↪ Nat) (deed : Deed) : Deed := ⟨deed.op.rename ρ, deed.time⟩

/-- The answer with the generations it names renamed. -/
def Outcome.rename (ρ : Nat ↪ Nat) : Outcome → Outcome
  | .token granted => .token (granted.map (·.rename ρ))
  | .waiter (.ok (channel, granted)) => .waiter (.ok (ρ channel, granted.rename ρ))
  | v => v

variable {ρ : Nat ↪ Nat}

@[simp] theorem RequestToken.key_rename (token : RequestToken) :
    (token.rename ρ).key = token.key := rfl

@[simp] theorem RequestEntry.token_rename (entry : RequestEntry) :
    (entry.rename ρ).token = entry.token.rename ρ := rfl

@[simp] theorem Op.key?_rename (o : Op) : (o.rename ρ).key? = o.key? := by
  cases o <;> rfl

namespace Slot

@[simp] theorem mark_rename (slot : Slot) (source : RequestState) :
    (slot.rename ρ).mark source = slot.mark source := by
  unfold mark rename
  cases slot.entry <;> rfl

@[simp] theorem claim_rename (slot : Slot) (token : RequestToken) (source : RequestState) :
    (slot.rename ρ).claim (token.rename ρ) source = slot.claim token source := by
  have hany : (slot.rename ρ).entry.any (·.generation = (token.rename ρ).generation) =
      slot.entry.any (·.generation = token.generation) := by
    cases hentry : slot.entry with
    | none => simp [rename, hentry]
    | some entry =>
      simp [rename, hentry, RequestEntry.rename, RequestToken.rename, ρ.injective.eq_iff]
  rw [claim, claim, hany, mark_rename]

/-- A change that knows no generation is the same under a renaming. -/
theorem settle_rename (slot : Slot) (m : MarkResult) (won : Slot → Slot)
    (hwon : ∀ slot, won (rename ρ slot) = (won slot).rename ρ) :
    (slot.rename ρ).settle m won = (slot.settle m won).rename ρ := by
  unfold settle
  split
  · exact hwon slot
  · rfl

theorem abandon_rename (slot : Slot) : (slot.rename ρ).abandon = slot.abandon.rename ρ := by
  rw [abandon, mark_rename, settle_rename slot _ retire fun _ ↦ rfl]
  rfl

/-- An operation under a renaming. -/
theorem serve_rename (slot : Slot) (o : Op) : (slot.rename ρ).serve (o.rename ρ) =
    ((slot.serve o).1, (slot.serve o).2.1.rename ρ, (slot.serve o).2.2) := by
  have hgone : ∀ m, (slot.rename ρ).settle m (fun slot ↦ slot.retire.unhook) =
      (slot.settle m fun slot ↦ slot.retire.unhook).rename ρ :=
    fun m ↦ settle_rename slot m (fun slot ↦ slot.retire.unhook) fun _ ↦ rfl
  cases o with
  | completeWaiter | markTimedOut => simp only [serve, Op.rename, mark_rename, hgone]
  | abortWaiter => simp only [serve, Op.rename, mark_rename, abandon_rename]
  | beginRespond token =>
    simp only [serve, Op.rename, claim_rename]
    rw [settle_rename slot _ (fun slot ↦ { slot with status := .responding }) fun _ ↦ rfl]
  | finishRespond token confirmed =>
    simp only [serve, Op.rename, claim_rename]
    rw [settle_rename slot _ retire fun _ ↦ rfl]
  | abortRequestToken token => simp only [serve, Op.rename, claim_rename, hgone]
  | _ => rfl

/-- An answer that a slot gives names no generation. -/
@[simp] theorem rename_serve (slot : Slot) (o : Op) :
    (slot.serve o).1.rename ρ = (slot.serve o).1 := by
  cases o <;> rfl

theorem enroll_rename (slot : Slot) (entry : RequestEntry) :
    (slot.rename ρ).enroll (entry.rename ρ) = (slot.enroll entry).rename ρ := rfl

@[simp] theorem overdue_rename (slot : Slot) (now : Instant) :
    (slot.rename ρ).overdue now = slot.overdue now := by
  unfold overdue rename
  cases slot.entry <;> rfl

theorem visit_rename (cfg : RegistryConfig) (tick : Nat) (now : Instant) (slot : Slot) :
    (slot.rename ρ).visit cfg tick now = (slot.visit cfg tick now).rename ρ := by
  unfold visit
  cases hentry : slot.entry with
  | none => simp [rename, hentry]
  | some entry =>
    have hentry' : (slot.rename ρ).entry = some (entry.rename ρ) := by simp [rename, hentry]
    have hstatus : (slot.rename ρ).status = slot.status := rfl
    have hdeadline : (entry.rename ρ).deadlineAt = entry.deadlineAt := rfl
    simp only [hentry', hstatus, hdeadline]
    split
    · rfl
    · split <;> rfl

theorem scan_rename (cfg : RegistryConfig) (tick : Nat) (now : Instant) (i : Nat) (slot : Slot) :
    (slot.rename ρ).scan cfg tick now i = (slot.scan cfg tick now i).rename ρ := by
  have hiterate : ∀ n slot, (visit cfg tick now)^[n] (rename ρ slot) =
      ((visit cfg tick now)^[n] slot).rename ρ := by
    intro n
    induction n with
    | zero => exact fun _ ↦ rfl
    | succ n ih =>
      intro slot
      rw [Function.iterate_succ_apply, Function.iterate_succ_apply, visit_rename, ih]
  exact hiterate (slot.scheduled i)
    { slot with scheduled := Function.update slot.scheduled i 0 }

@[simp] theorem dies_rename (slot : Slot) : (slot.rename ρ).dies = slot.dies := by
  unfold dies rename
  cases slot.entry <;> rfl

theorem close_rename (slot : Slot) : (slot.rename ρ).close = slot.close.rename ρ := by
  have hdrain : (slot.rename ρ).drain = slot.drain.rename ρ := by
    unfold drain
    rw [dies_rename]
    split <;> rfl
  have hlisted : (slot.rename ρ).listed = slot.listed := rfl
  unfold close
  rw [hlisted, hdrain]
  split <;> rfl

theorem abort_rename (slot : Slot) : (slot.rename ρ).abort = slot.abort.rename ρ := by
  have hsome : (slot.rename ρ).entry.isSome = slot.entry.isSome := by
    unfold rename
    cases slot.entry <;> rfl
  unfold abort
  rw [hsome, abandon_rename]
  split <;> rfl

end Slot

end MsgTrans.Registry
