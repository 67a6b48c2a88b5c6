import VmServer.Vm.QmpLoss

/-!
# What stays in the pending map

`Execute` stores its channel before it writes the request. The reply, the end
of the context and the loss of the connection each delete the entry again; a
request that cannot be written returns without doing so. `pending` is exact in
a run as long as no write fails on a connection that is not known to be lost.

## Implementation notes

A call waits until its channel has a reply or is closed, or until `readLoop`
has taken its entry to send the reply. A call whose context has ended waits
until it has deleted its entry.
-/

namespace VmServer.Vm

open TransitionSystem

/-- Call `i` has sent its request under this id and still waits for the reply. -/
def Outstanding (s : QmpClient) (i : Nat) (id : Int) : Prop :=
  ∃ c r, s.calls[i]? = some c ∧ c.request = some r ∧ r.id = id ∧ c.phase.inSelect = true ∧
    c.chan.Fresh ∧ ∀ reply, s.reader ≠ .handing i reply

/-- `pending` holds the calls that wait, and no call that has returned. -/
structure PendingExact (s : QmpClient) : Prop where
  waiting : ∀ id i, s.pending.lookup id = some i ↔ Outstanding s i id
  returned : ∀ (i : Nat) (c : Call) (r : QmpRequest) result line, s.calls[i]? = some c →
    c.request = some r → c.phase = .returned result line → r.id ∉ s.pending

/-- A request is written, or the connection is known to be lost and it is not even tried. -/
def Writes (s : QmpClient) (a : QmpAction) : Prop :=
  ∀ i err, a = .register i (some err) → s.err ≠ none

/-- No entry belongs to a call that has left its `select`. -/
def NoneLeft (s : QmpClient) : Prop :=
  ∀ id i c, s.pending.lookup id = some i → s.calls[i]? = some c → c.phase.inSelect = true

variable {unmarshal : String → Option QmpResponse} {s t : QmpClient} {a : QmpAction}

/-- An entry and a send under way never belong to the same call. -/
theorem Custody.not_handing (h : Custody s) {id : Int} {i : Nat}
    (stored : s.pending.lookup id = some i) (reply : Reply) : s.reader ≠ .handing i reply := by
  intro at_
  obtain ⟨id', _, awaits, gone⟩ := h.handing at_
  rw [← (h.pending stored).id_eq awaits, stored] at gone
  cases gone

/-- While the channels are owned and no call is forgotten, `pending` is exact when it holds only
calls in their `select`. -/
theorem pendingExact_iff (own : Owned s) (covered : NoneForgotten s) :
    PendingExact s ↔ NoneLeft s := by
  constructor
  · intro exact_ id i c stored found
    obtain ⟨d, _, found', _, _, inSelect, _⟩ := (exact_.waiting id i).mp stored
    obtain rfl : c = d := Option.some.inj (found.symm.trans found')
    exact inSelect
  · intro left
    have waiting : ∀ id i, s.pending.lookup id = some i ↔ Outstanding s i id := by
      intro id i
      constructor
      · intro stored
        obtain ⟨c, r, found, sent, same, fresh, _⟩ := own.custody.pending stored
        exact ⟨c, r, found, sent, same, left id i c stored found, fresh,
          own.custody.not_handing stored⟩
      · rintro ⟨c, r, found, sent, rfl, inSelect, ⟨empty, opened⟩, idle⟩
        rcases covered i c found inSelect with (full | closed) | ⟨reply, at_⟩ | ⟨q, sent', stored⟩
        · exact absurd empty full
        · exact Bool.noConfusion (opened.symm.trans closed)
        · exact absurd at_ (idle reply)
        · obtain rfl : r = q := Option.some.inj (sent.symm.trans sent')
          exact stored
    refine ⟨waiting, fun i c r result line found sent at_ member => ?_⟩
    obtain ⟨j, stored⟩ := Option.isSome_iff_exists.mp (AList.lookup_isSome.mpr member)
    obtain ⟨d, q, found', sent', same, inSelect, _⟩ := (waiting r.id j).mp stored
    obtain rfl : i = j := own.requests.distinct found found' sent sent' same.symm
    obtain rfl : c = d := Option.some.inj (found.symm.trans found')
    rw [at_] at inSelect
    cases inSelect

/-! ## One step -/

namespace QmpClient

theorem nextID_closeCall (i : Nat) : (s.closeCall i).nextID = s.nextID := by
  unfold closeCall
  split
  · rfl
  · split <;> rfl

theorem nextID_release (err : String) : (s.release err).nextID = s.nextID := by
  have folded (entries : List (Sigma fun _ : Int => Nat)) (s : QmpClient) :
      (entries.foldl (fun s e => s.closeCall e.2) s).nextID = s.nextID := by
    induction entries generalizing s with
    | nil => rfl
    | cons e rest ih => rw [List.foldl_cons, ih, nextID_closeCall]
  exact folded _ _

theorem nextID_readLine (line : String) : (s.readLine unmarshal line).nextID = s.nextID := by
  unfold readLine
  split
  · rfl
  · split
    · split <;> rfl
    · split <;> rfl

theorem nextID_lookup (id : Int) (reply : Reply) : (s.lookup id reply).nextID = s.nextID := by
  unfold lookup
  split <;> rfl

theorem nextID_handOver {i : Nat} {reply : Reply} (h : s.handOver i reply = some t) :
    t.nextID = s.nextID := by
  obtain ⟨c, _, h⟩ := Option.bind_eq_some_iff.mp h
  split at h
  · exact Option.some.inj h ▸ rfl
  · cases h
  · exact Option.some.inj h ▸ rfl

/-- Only `Execute` counts, in the section in which it stores its channel. -/
theorem registers_of_next (h : s.next unmarshal a = some t) : t.nextID = s.nextID ∨
    ∃ i encoded c, a = .register i encoded ∧ s.calls[i]? = some c ∧
      s.register i encoded c = some t := by
  unfold next at h
  split at h
  · cases h
  · split at h
    case h_1 => exact .inl (Option.some.inj h ▸ rfl)
    case h_2 i encoded =>
      obtain ⟨c, found, h⟩ := Option.bind_eq_some_iff.mp h
      exact .inr ⟨i, encoded, c, rfl, found, h⟩
    case h_3 =>
      obtain ⟨c, _, h⟩ := Option.bind_eq_some_iff.mp h
      unfold receive at h
      split at h
      · exact .inl (Option.some.inj h ▸ rfl)
      · exact .inl (Option.some.inj h ▸ rfl)
      · cases h
    case h_4 =>
      obtain ⟨c, _, h⟩ := Option.bind_eq_some_iff.mp h
      unfold contextDone at h
      split at h
      · exact .inl (Option.some.inj h ▸ rfl)
      · cases h
    case h_5 =>
      obtain ⟨c, _, h⟩ := Option.bind_eq_some_iff.mp h
      unfold remove at h
      split at h
      · exact .inl (Option.some.inj h ▸ rfl)
      · cases h
    case h_6 =>
      unfold takeEvent at h
      split at h
      · exact .inl (Option.some.inj h ▸ rfl)
      · cases h
    case h_7 => exact .inl (Option.some.inj h ▸ rfl)
    case h_8 =>
      obtain ⟨closer, _, h⟩ := Option.bind_eq_some_iff.mp h
      unfold closeReturns at h
      split at h
      · split at h
        · exact .inl (Option.some.inj h ▸ rfl)
        · cases h
      · cases h
    case h_9 => exact .inl (Option.some.inj h ▸ nextID_readLine _)
    case h_10 => exact .inl (Option.some.inj h ▸ rfl)
    case h_11 => exact .inl (Option.some.inj h ▸ nextID_lookup _ _)
    case h_12 => exact .inl (nextID_handOver h)
    case h_13 => exact .inl (Option.some.inj h ▸ nextID_release _)
    case h_14 =>
      refine .inl (Option.some.inj h ▸ ?_)
      unfold closeEvents
      split <;> rfl
    case h_15 =>
      refine .inl (Option.some.inj h ▸ ?_)
      unfold closeClosed
      split <;> rfl
    case h_16 => cases h

end QmpClient

/-- A call of an old entry that stays in its `select`. -/
theorem NoneLeft.keep (h : NoneLeft s)
    (entries : ∀ id i, t.pending.lookup id = some i → s.pending.lookup id = some i)
    (calls : Each (fun c c' => c.phase.inSelect = true → c'.phase.inSelect = true)
      s.calls t.calls) :
    NoneLeft t := by
  intro id i c' stored found
  obtain ⟨c, old, stays⟩ := calls i c' found
  exact stays (h id i c (entries id i stored) old)

/-- A call that leaves its `select` has no entry any more. -/
theorem NoneLeft.leave (h : NoneLeft s) {i : Nat} {c c' : Call} (found : s.calls[i]? = some c)
    (entries : ∀ id j, t.pending.lookup id = some j → s.pending.lookup id = some j ∧ i ≠ j)
    (calls : t.calls = s.calls.set i c') : NoneLeft t := by
  intro id j d stored found'
  obtain ⟨old, other⟩ := entries id j stored
  rw [calls] at found'
  rcases Contributions.of_getElem?_set found found' with ⟨rfl, _⟩ | ⟨_, same⟩
  · exact absurd rfl other
  · exact h id j d old same

theorem NoneLeft.registered (h : NoneLeft s) {i : Nat} {c c' : Call}
    (found : s.calls[i]? = some c) (selects : c'.phase.inSelect = true)
    {id : Int} (pending : t.pending = s.pending.insert id i) (calls : t.calls = s.calls.set i c') :
    NoneLeft t := by
  intro id' j d stored found'
  rw [calls] at found'
  rcases Contributions.of_getElem?_set found found' with ⟨rfl, rfl⟩ | ⟨other, same⟩
  · exact selects
  · by_cases new : id' = id
    · rw [pending, new, AList.lookup_insert] at stored
      exact absurd (Option.some.inj stored) other
    · rw [pending, AList.lookup_insert_ne new] at stored
      exact h id' j d stored same

/-- A written request keeps its entry for the time of its `select`. -/
theorem noneLeft_register (h : NoneLeft s) {i : Nat} {c : Call} {encoded : Option String}
    (found : s.calls[i]? = some c) (writes : Writes s (.register i encoded))
    (unsent : ∀ id j, s.pending.lookup id = some j → c.phase = .called → i ≠ j)
    (step : s.register i encoded c = some t) : NoneLeft t := by
  unfold QmpClient.register at step
  split at step
  case h_1 err at_ lost =>
    obtain rfl := Option.some.inj step
    exact h.leave found (fun id j stored => ⟨stored, unsent id j stored at_⟩) rfl
  case h_2 at_ held =>
    obtain rfl := Option.some.inj step
    cases encoded with
    | none => exact h.registered found rfl rfl rfl
    | some err => exact absurd held (writes i err rfl)
  case h_3 => cases step

/-- An entry that is still there after an erasure, and under another id. -/
theorem lookup_of_erase {pending : AList fun _ : Int => Nat} {id id' : Int} {i : Nat}
    (stored : (pending.erase id').lookup id = some i) :
    pending.lookup id = some i ∧ id ≠ id' := by
  by_cases same : id = id'
  · rw [same, AList.lookup_erase] at stored
    cases stored
  · exact ⟨(AList.lookup_erase_ne same).symm.trans stored, same⟩

/-- An entry belongs to a call that has sent a request. -/
theorem Owned.unsent (own : Owned s) {i j : Nat} {c : Call} {id : Int}
    (found : s.calls[i]? = some c) (at_ : c.phase = .called)
    (stored : s.pending.lookup id = some j) : i ≠ j := by
  rintro rfl
  obtain ⟨d, r, found', sent, _⟩ := own.custody.pending stored
  obtain rfl : c = d := Option.some.inj (found.symm.trans found')
  exact Option.some_ne_none r (sent.symm.trans (own.requests.fresh found at_))

/-- A step that registers nothing. -/
theorem noneLeft_moves (own : Owned s) (h : NoneLeft s) (move : ClientMoves unmarshal s t)
    (same : t.nextID = s.nextID) : NoneLeft t := by
  have still : Each (fun c c' => c.phase.inSelect = true → c'.phase.inSelect = true)
      s.calls s.calls := fun i c found => ⟨c, found, fun waits => waits⟩
  have unused {i : Nat} {c : Call} (found : s.calls[i]? = some c) (used : c.chan.Ready) {id : Int}
      {j : Nat} (stored : s.pending.lookup id = some j) : s.pending.lookup id = some j ∧ i ≠ j :=
    ⟨stored, ((own.custody.pending stored).ne found used).symm⟩
  cases move with
  | aside | skipped | found | failed | unknown | ended | finished =>
      exact h.keep (fun _ _ stored => stored) still
  | called =>
      intro id i c stored found
      rcases Contributions.of_getElem?_concat found with ⟨rfl, _⟩ | old
      · obtain ⟨d, _, inside, _⟩ := own.custody.pending stored
        exact absurd (List.getElem?_eq_some_iff.mp inside).1 (Nat.lt_irrefl _)
      · exact h id i c stored old
  | refused found at_ =>
      exact h.leave found (fun id j stored => ⟨stored, own.unsent found at_ stored⟩) rfl
  | registered => exact absurd same (Int.lt_succ s.nextID).ne'
  | answered found at_ before =>
      exact h.leave found (fun id j => unused found (.inl (before ▸ List.cons_ne_nil _ _))) rfl
  | cutOff found at_ closed => exact h.leave found (fun id j => unused found (.inr closed)) rfl
  | cancelled found =>
      exact h.keep (fun _ _ stored => stored) (Each.set (fun _ waits => waits) found fun _ => rfl)
  | removed found at_ sent =>
      refine h.leave found (fun id j stored => ?_) rfl
      obtain ⟨old, other⟩ := lookup_of_erase stored
      refine ⟨old, ?_⟩
      rintro rfl
      obtain ⟨d, r, found', sent', rfl, _⟩ := own.custody.pending old
      obtain rfl := Option.some.inj (found.symm.trans found')
      exact other (congrArg QmpRequest.id (Option.some.inj (sent'.symm.trans sent)))
  | claimed => exact h.keep (fun _ _ stored => (lookup_of_erase stored).1) still
  | handed at_ found =>
      exact h.keep (fun _ _ stored => stored)
        (Each.set (fun _ waits => waits) found fun waits => waits)
  | released =>
      intro id i c stored
      cases stored

/-- Nothing is left behind by a step exactly when it is not a failed write. -/
theorem noneLeft_next_iff (own : Owned s) (h : NoneLeft s) (step : s.next unmarshal a = some t) :
    NoneLeft t ↔ Writes s a := by
  constructor
  · rintro left i err rfl held
    obtain ⟨c, found, registers⟩ :
        ∃ c, s.calls[i]? = some c ∧ s.register i (some err) c = some t := by
      simpa [QmpClient.next, own.flags.alive, Option.bind_eq_some_iff] using step
    unfold QmpClient.register at registers
    split at registers
    case h_1 lost =>
      rw [held] at lost
      cases lost
    case h_2 =>
      obtain rfl := Option.some.inj registers
      have inSelect := left (s.nextID + 1) i _ (AList.lookup_insert _)
        ((Contributions.getElem?_set found _ _).trans (if_pos rfl))
      cases inSelect
    case h_3 => cases registers
  · intro writes
    rcases QmpClient.registers_of_next step with same | ⟨i, encoded, c, rfl, found, registers⟩
    · exact noneLeft_moves own h (QmpClient.moves_of_next own step) same
    · exact noneLeft_register h found writes
        (fun _ _ stored at_ => own.unsent found at_ stored) registers

/-- In every run, with any callers and any stream of lines, `pending` is exact in every state
exactly when no request fails to be written on a connection that is not known to be lost. -/
theorem pending_exact_iff (x : Execution (qmpSystem unmarshal)) :
    x.Always PendingExact ↔ x.Meets Writes := by
  refine x.run.always_iff (I := fun s => Owned s ∧ NoneForgotten s) ?_ ?_ ?_
  · rintro s rfl
    have covered : NoneForgotten QmpClient.dialled := fun i c hc => by
      simp [QmpClient.dialled] at hc
    refine ⟨⟨owned_dialled, covered⟩, (pendingExact_iff owned_dialled covered).mpr ?_⟩
    intro id i c stored
    cases stored
  · rintro s a t ⟨own, covered⟩ _ _ step
    have move := QmpClient.moves_of_next own step
    exact ⟨own.moves move, covered.moves own.requests move⟩
  · rintro s a t ⟨own, covered⟩ held step
    have move := QmpClient.moves_of_next own step
    rw [pendingExact_iff (own.moves move) (covered.moves own.requests move)]
    exact noneLeft_next_iff own ((pendingExact_iff own covered).mp held) step

/-- The entry of a request that could not be written stays. -/
theorem failed_write_leaves_entry :
    ∃ x : Execution (qmpSystem fun _ => none), ¬ x.Always PendingExact := by
  refine Execution.exists_not_always (s := QmpClient.dialled) rfl
    (show exec _ _ [.execute "stop" none, .register 0 (some "broken pipe")] = some _ from rfl)
    fun exact_ => ?_
  obtain ⟨c, r, found, _, _, inSelect, _⟩ := (exact_.waiting 1 0).mp rfl
  obtain rfl := Option.some.inj found
  cases inSelect

end VmServer.Vm
