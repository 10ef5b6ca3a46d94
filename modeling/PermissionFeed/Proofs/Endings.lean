import PermissionFeed.Proofs.Mailboxes

namespace PermissionFeed

variable {Event : Type}

namespace FeedMove

def usesHandle : FeedMove Event → Bool
  | .cloneHandle | .dropHandle | .subscribe _ | .publish _ => true
  | .unsubscribe _ | .receive _ | .drain _ => false

def isClone : FeedMove Event → Bool
  | .cloneHandle => true
  | _ => false

def isDrop : FeedMove Event → Bool
  | .dropHandle => true
  | _ => false

def handlesLeft (moves : List (FeedMove Event)) : Nat :=
  1 + moves.countP isClone - moves.countP isDrop

def attach : Nat × List Nat → FeedMove Event → Nat × List Nat
  | (made, attached), .subscribe _ => (made + 1, attached ++ [made])
  | (made, attached), .unsubscribe id => (made, attached.filter (· ≠ id))
  | state, _ => state

def attached (moves : List (FeedMove Event)) : List Nat :=
  (moves.foldl attach (0, [])).2

end FeedMove

namespace Mailbox

theorem play_takes (mailbox : Mailbox Event) (count : Nat) : mailbox.play (List.replicate count .take) =
    (mailbox.queued.take count, { mailbox with queued := mailbox.queued.drop count }) := by
  induction count generalizing mailbox with
  | zero => rfl
  | succ count ih =>
      simp only [List.replicate_succ, play, move, ih, List.drop_drop, ← List.take_add, Nat.add_comm 1 count]

theorem queued_of_unoffered (mailbox : Mailbox Event) {moves : List (MailboxMove Event)} (empty : mailbox.queued = [])
    (unoffered : moves.filterMap offered? = []) : (mailbox.play moves).2.queued = [] := by
  have sublist := mailbox.play_sublist moves
  rw [empty, unoffered, List.append_nil, List.sublist_nil] at sublist
  exact (List.append_eq_nil_iff.mp sublist).2

end Mailbox

namespace Feed

variable {feed : Feed Event} {id reader : Nat} {history : List Event} {subscription : Subscription}
  {mailbox : Mailbox Event} {moves : List (FeedMove Event)}

/-- The moves can be made: whoever uses a handle finds one left. -/
def Allows (feed : Feed Event) : List (FeedMove Event) → Prop
  | [] => True
  | move :: moves => (move.usesHandle → 0 < feed.handles) ∧ (feed.move move).2.Allows moves

instance decidableAllows (feed : Feed Event) : (moves : List (FeedMove Event)) → Decidable (feed.Allows moves)
  | [] => .isTrue trivial
  | move :: moves => have := decidableAllows (feed.move move).2 moves; inferInstanceAs (Decidable (_ ∧ _))

theorem play_cons (feed : Feed Event) (move : FeedMove Event) (moves : List (FeedMove Event)) :
    feed.play (move :: moves) = (feed.move move).2.play moves :=
  rfl

theorem play_append (feed : Feed Event) (first second : List (FeedMove Event)) :
    feed.play (first ++ second) = (feed.play first).play second :=
  List.foldl_append

theorem handles_publish (feed : Feed Event) (event : Event) : (feed.publish event).2.handles = feed.handles := by
  unfold publish
  split <;> rfl

theorem handles_move {move : FeedMove Event} (allowed : move.usesHandle → 0 < feed.handles) :
    (feed.move move).2.handles + [move].countP FeedMove.isDrop = feed.handles + [move].countP FeedMove.isClone := by
  cases move with
  | cloneHandle | subscribe server | unsubscribe id => rfl
  | dropHandle =>
      have left : 0 < feed.handles := allowed rfl
      exact Nat.sub_add_cancel left
  | publish event => exact handles_publish feed event
  | receive reader =>
      obtain ⟨subscriptions, same, _⟩ := feed.receive_frame reader
      simp only [Feed.move, same]
      rfl
  | drain reader =>
      obtain ⟨subscriptions, same, _⟩ := feed.receiveMany_frame reader (feed.kept.length + 1)
      simp only [Feed.move, Feed.drain, same]
      rfl

theorem handles_play (allows : feed.Allows moves) :
    (feed.play moves).handles + moves.countP FeedMove.isDrop = feed.handles + moves.countP FeedMove.isClone := by
  induction moves generalizing feed with
  | nil => rfl
  | cons move moves ih =>
      have first := handles_move allows.1
      have rest := ih allows.2
      rw [← List.singleton_append, List.countP_append, List.countP_append, List.singleton_append, play_cons]
      omega

theorem handles_of_start {capacity : Nat} (allows : (ofCapacity capacity : Feed Event).Allows moves) :
    ((ofCapacity capacity : Feed Event).play moves).handles = FeedMove.handlesLeft moves := by
  have counted := handles_play allows
  have one : (ofCapacity capacity : Feed Event).handles = 1 := rfl
  rw [FeedMove.handlesLeft]
  omega

theorem allows_of_unused (unused : ∀ move ∈ moves, move.usesHandle = false) : feed.Allows moves := by
  induction moves generalizing feed with
  | nil => trivial
  | cons move moves ih =>
      rw [List.forall_mem_cons] at unused
      exact ⟨by simp [unused.1], ih unused.2⟩

theorem quiet_of_allows (allows : feed.Allows moves) (closed : feed.handles = 0) :
    (feed.play moves).handles = 0 ∧ moves.filterMap FeedMove.published? = [] := by
  induction moves generalizing feed with
  | nil => exact ⟨closed, rfl⟩
  | cons move moves ih =>
      have unused : move.usesHandle = false := by
        refine Bool.eq_false_iff.mpr fun uses => ?_
        exact absurd closed (Nat.ne_of_gt (allows.1 uses))
      have still : (feed.move move).2.handles = 0 := by
        have counted := handles_move allows.1
        cases move <;> simp_all [FeedMove.usesHandle, FeedMove.isClone, FeedMove.isDrop]
      have unpublished : move.published? = none := by
        cases move <;> first | rfl | simp [FeedMove.usesHandle] at unused
      rw [List.filterMap_cons_none unpublished]
      exact ih allows.2 still

theorem Mirrors.of_holds (mirrors : feed.Mirrors id history subscription mailbox) {other : List Event}
    (holds : feed.Holds other) : feed.Mirrors id other subscription mailbox := by
  have length : history.length = other.length := mirrors.holds.position.symm.trans holds.position
  refine ⟨holds, mirrors.positive, mirrors.issued, mirrors.found, length ▸ mirrors.reached, mirrors.size, ?_,
    length ▸ mirrors.discarded⟩
  -- what is queued is an end of what the feed keeps, and both histories end in that
  have ends : history.drop (history.length - feed.capacity) = other.drop (other.length - feed.capacity) :=
    mirrors.holds.kept.symm.trans holds.kept
  have split (position low : Nat) (list : List Event) :
      list.drop (max position low) = (list.drop low).drop (position - low) := by
    rw [List.drop_drop]
    congr 1
    omega
  rw [mirrors.queued, split, split, ends, length]

theorem Holds.move_heard (holds : feed.Holds history) (heard : feed.subscriptions.isEmpty = false)
    (move : FeedMove Event) : (feed.move move).2.Holds (history ++ move.published?.toList) := by
  cases move with
  | publish event => exact holds.publish heard event
  | cloneHandle | dropHandle | subscribe | unsubscribe =>
      rw [FeedMove.published?, Option.toList_none, List.append_nil]
      exact ⟨holds.position, holds.kept⟩
  | receive reader =>
      obtain ⟨subscriptions, same, _⟩ := feed.receive_frame reader
      rw [FeedMove.published?, Option.toList_none, List.append_nil, Feed.move, same]
      exact holds.of_subscriptions _
  | drain reader =>
      obtain ⟨subscriptions, same, _⟩ := feed.receiveMany_frame reader (feed.kept.length + 1)
      rw [FeedMove.published?, Option.toList_none, List.append_nil, Feed.move, Feed.drain, same]
      exact holds.of_subscriptions _

theorem Mirrors.play_published (mirrors : feed.Mirrors id history subscription mailbox)
    (stays : .unsubscribe id ∉ moves) :
    ∃ later, (feed.play moves).Mirrors id (history ++ moves.filterMap FeedMove.published?) later
      (mailbox.play (moves.filterMap (FeedMove.mail? id))).2 := by
  induction moves generalizing feed history subscription mailbox with
  | nil => exact ⟨subscription, by simpa [Feed.play, Mailbox.play] using mirrors⟩
  | cons move moves ih =>
      rw [List.mem_cons, not_or] at stays
      obtain ⟨_, _, later, still, _⟩ := mirrors.move (Ne.symm stays.1)
      have holds := mirrors.holds.move_heard (isEmpty_of_found mirrors.found) move
      obtain ⟨last, played⟩ := ih (still.of_holds holds) stays.2
      have all : (move :: moves).filterMap FeedMove.published? =
          move.published?.toList ++ moves.filterMap FeedMove.published? := by
        rw [List.filterMap_cons]
        cases move.published? <;> rfl
      refine ⟨last, ?_⟩
      rwa [FeedMove.mail_cons, Mailbox.play_append, all, ← List.append_assoc, play_cons]

theorem Mirrors.received (mirrors : feed.Mirrors id history subscription mailbox) : (feed.receive id).1 =
    (mailbox.queued.head?.map .event).getD (if feed.handles = 0 then .ended else .pending) := by
  have handed := mirrors.receive.1
  cases queued : mailbox.queued with
  | cons event rest =>
      rw [queued] at handed
      exact Received.events_eq_singleton.mp handed
  | nil =>
      have level : history.length ≤ (feed.catchUp subscription).position := by
        rw [mirrors.catchUp.1]
        exact List.drop_eq_nil_iff.mp (mirrors.queued.symm.trans queued)
      rw [receive_of_found mirrors.found]
      simp only [receiveFor, mirrors.holds.position, Nat.not_lt.mpr level, if_false]
      rfl

theorem Mirrors.ended_iff (mirrors : feed.Mirrors id history subscription mailbox) :
    (feed.receive id).1 = .ended ↔ feed.handles = 0 ∧ mailbox.queued = [] := by
  rw [mirrors.received]
  cases mailbox.queued with
  | cons event rest => simp
  | nil => by_cases closed : feed.handles = 0 <;> simp [closed]

theorem Mirrors.dropped_receive (mirrors : feed.Mirrors id history subscription mailbox) :
    (feed.receive id).2.dropped id = mailbox.discarded := by
  obtain ⟨_, later, counted, still⟩ := mirrors.receive
  rw [dropped_of_found still.found, counted]

theorem Mirrors.length_queued (mirrors : feed.Mirrors id history subscription mailbox) {taken published : Nat}
    (accounts : taken + mailbox.discarded + mailbox.queued.length = published) :
    mailbox.queued.length = min (published - taken - feed.dropped id) feed.capacity ∧
      (mailbox.queued = [] ↔ taken + feed.dropped id = published) := by
  have length :
      mailbox.queued.length = history.length - max subscription.position (history.length - feed.capacity) := by
    rw [mirrors.queued, List.length_drop]
  have discarded := mirrors.discarded
  have positive := mirrors.positive
  have reached := mirrors.reached
  rw [dropped_of_found mirrors.found, ← List.length_eq_zero_iff]
  omega

theorem Mirrors.queued_of_appended {published : List Event}
    (mirrors : feed.Mirrors id (history ++ published) subscription mailbox)
    (fits : mailbox.queued.length ≤ published.length) :
    mailbox.queued = published.drop (published.length - mailbox.queued.length) := by
  have ending : mailbox.queued <:+ history ++ published := mirrors.queued ▸ List.drop_suffix _ _
  exact List.suffix_iff_eq_drop.mp (List.suffix_of_suffix_length_le ending (List.suffix_append _ _) fits)

theorem Mirrors.receive_next (mirrors : feed.Mirrors id history subscription mailbox) (count : Nat) :
    let later := feed.play (.replicate count (.receive id))
    (later.receive id).1 = (mailbox.queued[count]?.map .event).getD (if feed.handles = 0 then .ended else .pending) ∧
      (later.receive id).2.dropped id = mailbox.discarded := by
  intro later
  have stays : .unsubscribe id ∉ List.replicate count (FeedMove.receive id : FeedMove Event) := by
    simp [List.mem_replicate]
  have mail : (List.replicate count (FeedMove.receive id : FeedMove Event)).filterMap (FeedMove.mail? id) =
      .replicate count .take := by
    simp [FeedMove.mail?]
  have handles : later.handles = feed.handles := by
    have allows : feed.Allows (.replicate count (.receive id)) := allows_of_unused (by simp [FeedMove.usesHandle])
    simpa [List.countP_replicate, FeedMove.isClone, FeedMove.isDrop] using handles_play allows
  obtain ⟨_, grown, last, still⟩ := mirrors.play stays
  rw [mail, mailbox.play_takes] at still
  refine ⟨?_, still.dropped_receive⟩
  rw [still.received, handles, List.head?_drop]

structure Attaches (feed : Feed Event) (told : Nat × List Nat) : Prop where
  made : feed.nextId = told.1
  distinct : told.2.Nodup
  issued : ∀ id ∈ told.2, id < told.1
  attached : ∀ id, id ∈ feed.subscriptions ↔ id ∈ told.2

theorem mem_receive : id ∈ (feed.receive reader).2.subscriptions ↔ id ∈ feed.subscriptions := by
  cases found : feed.subscriptions[reader]? with
  | none => rw [receive, found]
  | some subscription =>
      have attached : reader ∈ feed.subscriptions := Std.ExtTreeMap.mem_iff_isSome_getElem?.mpr (by simp [found])
      rw [receive_of_found found, Std.ExtTreeMap.mem_insert, Std.LawfulEqCmp.compare_eq_iff_eq]
      exact or_iff_right_of_imp fun same => same ▸ attached

theorem mem_receiveMany {count : Nat} :
    id ∈ (feed.receiveMany reader count).2.subscriptions ↔ id ∈ feed.subscriptions := by
  induction count generalizing feed with
  | zero => rfl
  | succ count ih =>
      have first : id ∈ (feed.receive reader).2.subscriptions ↔ id ∈ feed.subscriptions := mem_receive
      rw [← first]
      rcases received : feed.receive reader with ⟨event | _ | _, after⟩
      · rw [receiveMany_of_event received]
        exact ih
      · rw [receiveMany_of_nothing (by simp [received]), received]
      · rw [receiveMany_of_nothing (by simp [received]), received]

theorem attaches_ofCapacity (capacity : Nat) : (ofCapacity capacity : Feed Event).Attaches (0, []) :=
  ⟨rfl, List.nodup_nil, nofun, fun _ => iff_of_false Std.ExtTreeMap.not_mem_empty List.not_mem_nil⟩

theorem Attaches.move {told : Nat × List Nat} (attaches : feed.Attaches told) (move : FeedMove Event) :
    (feed.move move).2.Attaches (FeedMove.attach told move) := by
  obtain ⟨made, distinct, issued, attached⟩ := attaches
  cases move with
  | cloneHandle | dropHandle => exact ⟨made, distinct, issued, attached⟩
  | subscribe server =>
      have fresh : told.1 ∉ told.2 := fun listed => Nat.lt_irrefl _ (issued _ listed)
      refine ⟨congrArg (· + 1) made, ?_, fun id listed => ?_, fun id => ?_⟩
      · refine List.nodup_append.mpr ⟨distinct, by simp, fun id listed other new same => fresh ?_⟩
        rwa [← List.mem_singleton.mp new, ← same]
      · rcases List.mem_append.mp listed with earlier | new
        · exact Nat.lt_succ_of_lt (issued id earlier)
        · exact Nat.lt_succ_of_le (Nat.le_of_eq (List.mem_singleton.mp new))
      · refine Std.ExtTreeMap.mem_insert.trans ?_
        rw [Std.LawfulEqCmp.compare_eq_iff_eq, attached, made, or_comm, eq_comm]
        simp [FeedMove.attach]
  | unsubscribe id =>
      refine ⟨made, distinct.filter _, fun other listed => issued other (List.mem_filter.mp listed).1, fun other => ?_⟩
      refine Std.ExtTreeMap.mem_erase.trans ?_
      rw [Ne, Std.LawfulEqCmp.compare_eq_iff_eq, attached, and_comm, eq_comm]
      simp [FeedMove.attach]
  | publish event =>
      refine ⟨?_, distinct, issued, fun id => ?_⟩
      · rw [Feed.move, Feed.publish]
        split <;> exact made
      · rw [Feed.move, subscriptions_publish]
        exact attached id
  | receive reader =>
      obtain ⟨subscriptions, same, _⟩ := feed.receive_frame reader
      refine ⟨?_, distinct, issued, fun id => mem_receive.trans (attached id)⟩
      rw [Feed.move, same]
      exact made
  | drain reader =>
      obtain ⟨subscriptions, same, _⟩ := feed.receiveMany_frame reader (feed.kept.length + 1)
      refine ⟨?_, distinct, issued, fun id => mem_receiveMany.trans (attached id)⟩
      rw [Feed.move, Feed.drain, same]
      exact made

theorem Attaches.play {told : Nat × List Nat} (attaches : feed.Attaches told) (moves : List (FeedMove Event)) :
    (feed.play moves).Attaches (moves.foldl FeedMove.attach told) := by
  induction moves generalizing feed told with
  | nil => exact attaches
  | cons move moves ih => exact ih (attaches.move move)

theorem Attaches.publish {told : Nat × List Nat} (attaches : feed.Attaches told) (event : Event) :
    (feed.publish event).1 = told.2.length := by
  have count : feed.subscriptions.size = told.2.length := by
    rw [← Std.ExtTreeMap.length_keys]
    refine ((List.perm_ext_iff_of_nodup Std.ExtTreeMap.nodup_keys attaches.distinct).mpr fun id => ?_).length_eq
    rw [Std.ExtTreeMap.mem_keys, attaches.attached]
  unfold Feed.publish
  split
  · next unheard => rw [← count, Std.ExtTreeMap.isEmpty_iff.mp unheard, Std.ExtTreeMap.size_empty]
  · exact count

/-- A feed ends for a subscription exactly if no handle is left and the subscription has taken or lost all that was
published since it was attached. Until then the subscription receives the last of these in order, as many as there is
room for, and the others count as lost. What has ended stays ended. A publication tells how many are attached. -/
theorem ends_in_time (capacity : Nat) (before : List (FeedMove Event)) (server : String) (moves : List (FeedMove Event))
    (possible : (ofCapacity capacity : Feed Event).Allows (before ++ .subscribe server :: moves))
    (stays : .unsubscribe ((ofCapacity capacity).play before).nextId ∉ moves) :
    let start : Feed Event := ofCapacity capacity
    let run := before ++ .subscribe server :: moves
    let id := (start.play before).nextId
    let after := start.play run
    let published := moves.filterMap FeedMove.published?
    let taken := ((start.play before).subscribe server).2.receivedBy id moves
    let left := min (published.length - taken.length - after.dropped id) (max capacity 1).nextPowerOfTwo
    let next := fun count => after.play (.replicate count (.receive id))
    ((after.receive id).1 = .ended ↔
        FeedMove.handlesLeft run = 0 ∧ taken.length + after.dropped id = published.length) ∧
      (∀ count, ((next count).receive id).2.dropped id = published.length - taken.length - left ∧
        ((next count).receive id).1 = (published[published.length - left + count]?.map .event).getD
          (if FeedMove.handlesLeft run = 0 then .ended else .pending)) ∧
      (∀ later, after.Allows later → .unsubscribe id ∉ later → (after.receive id).1 = .ended →
        ((after.play later).receive id).1 = .ended) ∧
      ∀ earlier event, ((start.play earlier).publish event).1 = (FeedMove.attached earlier).length := by
  intro start run id after published taken left next
  obtain ⟨⟨history, holds⟩, size⟩ := (holds_ofCapacity capacity).play before
  have positive : 0 < (start.play before).capacity :=
    size ▸ Nat.pos_of_isPowerOfTwo (Nat.isPowerOfTwo_nextPowerOfTwo _)
  have fresh := holds.mirrors_subscribe positive server
  have reached : after = ((start.play before).subscribe server).2.play moves := start.play_append before _
  have handles : after.handles = FeedMove.handlesLeft run := handles_of_start possible
  have room : after.capacity = (max capacity 1).nextPowerOfTwo := ((holds_ofCapacity capacity).play run).2
  obtain ⟨handed, _⟩ := fresh.play stays
  obtain ⟨later, mirrors⟩ := fresh.play_published stays
  have accounts := (Mailbox.empty (start.play before).capacity).play_accounts (moves.filterMap (FeedMove.mail? id))
  rw [← handed, FeedMove.offered_mail] at accounts
  rw [← reached] at mirrors
  generalize ((Mailbox.empty (start.play before).capacity).play (moves.filterMap (FeedMove.mail? id))).2 = mailbox
    at accounts mirrors
  have counted : taken.length + mailbox.discarded + mailbox.queued.length = published.length :=
    accounts.trans (Nat.zero_add _)
  obtain ⟨filled, level⟩ := mirrors.length_queued counted
  have length : mailbox.queued.length = left := by rw [filled, room]
  have queued : mailbox.queued = published.drop (published.length - left) := by
    have fits : mailbox.queued.length ≤ published.length := by omega
    rw [← length]
    exact mirrors.queued_of_appended fits
  refine ⟨?_, fun count => ?_, fun further allowed attached ended => ?_, fun earlier event => ?_⟩
  · rw [mirrors.ended_iff, handles, level]
  · obtain ⟨received, lost⟩ := mirrors.receive_next count
    rw [queued, handles, List.getElem?_drop] at received
    exact ⟨lost.trans (by omega), received⟩
  · obtain ⟨closed, empty⟩ := mirrors.ended_iff.mp ended
    obtain ⟨quiet, silent⟩ := quiet_of_allows allowed closed
    obtain ⟨last, still⟩ := mirrors.play_published attached
    exact still.ended_iff.mpr ⟨quiet, mailbox.queued_of_unoffered empty ((FeedMove.offered_mail id further).trans silent)⟩
  · exact ((attaches_ofCapacity capacity).play earlier).publish event

theorem ends_in_time_lagging :
    let before : List (FeedMove Nat) := [.subscribe "hall", .publish 0]
    let moves : List (FeedMove Nat) := [.cloneHandle, .publish 1, .dropHandle, .receive 1, .publish 2, .unsubscribe 0,
      .publish 3, .publish 4, .publish 5, .dropHandle]
    let after := (ofCapacity 2).play (before ++ .subscribe "lobby" :: moves)
    (after.receive 1).1 = .event 4 ∧ (after.receive 1).2.dropped 1 = 2 ∧
      ((after.play (.replicate 2 (.receive 1))).receive 1).1 = .ended := by
  intro before moves after
  have possible : (ofCapacity 2 : Feed Nat).Allows (before ++ .subscribe "lobby" :: moves) := by
    decide +kernel
  have stays : .unsubscribe 1 ∉ moves := by simp [moves]
  obtain ⟨_, next, _⟩ := ends_in_time 2 before "lobby" moves possible stays
  exact ⟨(next 0).2.trans (by decide +kernel), (next 0).1.trans (by decide +kernel),
    (next 2).2.trans (by decide +kernel)⟩

end Feed

end PermissionFeed
