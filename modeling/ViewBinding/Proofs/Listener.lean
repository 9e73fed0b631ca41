import ViewBinding.Listener
import ViewBinding.Proofs.Association

/-! The listeners of all nodes as one list in the order of their installation. The store answers as that list does,
whatever has been installed and purged before, and so does a table that keeps the listeners of a node in one queue for
each event: a listener that is installed again may move from one queue to another, and no queue is left empty. -/
namespace ViewBinding

/-- A call that changes a store. -/
inductive ListenerCall where
  | install (id : NodeId) (listener : Listener)
  | purge (ids : List NodeId)

/-- All that a store tells of its listeners. -/
structure ListenerAnswers where
  matching : NodeId → String → String → List Listener
  countOn : NodeId → Nat
  size : Nat
  /-- Whether an installation takes the place of a listener. -/
  replaces : NodeId → Listener → Bool
  /-- How many listeners go with some nodes. -/
  countPurged : List NodeId → Nat

/-- The listeners of all nodes in the order of their installation. -/
abbrev ListenerLog := List (NodeId × Listener)

namespace ListenerLog

open ListenerStore (sameSlot reinstalled)

/-- Whether an entry gives way to a listener: it has the same node, owner and slot, under whatever event. -/
def givesWay (id : NodeId) (listener : Listener) (entry : NodeId × Listener) : Bool :=
  entry.1 == id && sameSlot entry.2 listener

def perform (log : ListenerLog) : ListenerCall → ListenerLog
  | .install id listener => log.filter (!givesWay id listener ·) ++ [(id, listener)]
  | .purge ids => log.filter (!ids.contains ·.1)

def run (calls : List ListenerCall) : ListenerLog := calls.foldl perform []

def answers (log : ListenerLog) : ListenerAnswers where
  matching id owner event :=
    (log.filter fun entry => entry.1 == id && entry.2.owner == owner && entry.2.event == event).map (·.2)
  countOn id := log.countP (·.1 == id)
  size := log.length
  replaces id listener := log.any (givesWay id listener)
  countPurged ids := log.countP (ids.contains ·.1)

/-- The listeners of one node. -/
def on (log : ListenerLog) (id : NodeId) : List Listener := (log.filter (·.1 == id)).map (·.2)

theorem on_install_self (log : ListenerLog) (id : NodeId) (l : Listener) :
    (log.perform (.install id l)).on id = reinstalled l (log.on id) := by
  rw [perform, reinstalled, on, on, List.filter_append, List.map_append, List.filter_map, List.filter_filter,
    List.filter_filter]
  congr 2
  · refine List.filter_congr fun entry _ => ?_
    cases hid : entry.1 == id <;> simp [givesWay, hid]
  · simp

theorem on_install_of_ne (log : ListenerLog) {id other : NodeId} (h : other ≠ id) (l : Listener) :
    (log.perform (.install id l)).on other = log.on other := by
  have hnew : [(id, l)].filter (·.1 == other) = [] := by simp [Ne.symm h]
  rw [perform, on, on, List.filter_append, List.filter_filter, hnew, List.append_nil]
  refine congrArg _ (List.filter_congr fun entry _ => ?_)
  by_cases he : entry.1 = other
  · simp [givesWay, he, h]
  · simp [he]

theorem on_purge (log : ListenerLog) (ids : List NodeId) (id : NodeId) :
    (log.perform (.purge ids)).on id = if ids.contains id then [] else log.on id := by
  rw [perform, on, on, List.filter_filter]
  split
  · next hin =>
    have hnone : ∀ entry ∈ log, ¬ (entry.1 == id && !ids.contains entry.1) = true := fun entry _ he => by
      obtain ⟨hid, hout⟩ := Bool.and_eq_true_iff.1 he
      rw [beq_iff_eq.1 hid, hin] at hout
      cases hout
    rw [List.filter_eq_nil_iff.2 hnone, List.map_nil]
  · next hout =>
    refine congrArg _ (List.filter_congr fun entry _ => ?_)
    by_cases he : entry.1 = id
    · simp only [he, beq_self_eq_true, Bool.true_and, Bool.eq_false_iff.2 hout, Bool.not_false]
    · simp [he]

/-- A node has at most one listener for an owner and a slot. -/
theorem nodup_run (calls : List ListenerCall) :
    ((run calls).map fun entry => (entry.1, entry.2.owner, entry.2.slot)).Nodup := by
  have hstep : ∀ log : ListenerLog, (log.map fun entry => (entry.1, entry.2.owner, entry.2.slot)).Nodup →
      ∀ call, ((log.perform call).map fun entry => (entry.1, entry.2.owner, entry.2.slot)).Nodup := by
    intro log hlog call
    cases call with
    | purge ids => exact hlog.sublist (List.filter_sublist.map _)
    | install id l =>
      rw [perform, List.map_append]
      refine List.nodup_append.2 ⟨hlog.sublist (List.filter_sublist.map _), List.nodup_singleton _, ?_⟩
      rintro key hold key' hnew rfl
      obtain ⟨entry, hentry, rfl⟩ := List.mem_map.1 hold
      obtain ⟨hid, howner, hslot⟩ : entry.1 = id ∧ entry.2.owner = l.owner ∧ entry.2.slot = l.slot := by
        simpa using hnew
      have hkept := (List.mem_filter.1 hentry).2
      simp [givesWay, sameSlot, hid, howner, hslot] at hkept
  unfold run
  induction calls using List.reverseRecOn with
  | nil => exact List.nodup_nil
  | append_singleton calls call ih =>
    rw [List.foldl_append]
    exact hstep _ ih call

/-- Entries that differ in their nodes, owners or slots differ in their owners or slots on each node. -/
theorem nodup_on {log : ListenerLog} (h : (log.map fun entry => (entry.1, entry.2.owner, entry.2.slot)).Nodup)
    (id : NodeId) : ((log.on id).map fun l => (l.owner, l.slot)).Nodup := by
  have hnode : ((log.on id).map fun l => (l.owner, l.slot)).map (id, ·) =
      (log.filter (·.1 == id)).map fun entry => (entry.1, entry.2.owner, entry.2.slot) := by
    rw [on, List.map_map, List.map_map]
    refine List.map_congr_left fun entry hentry => ?_
    rw [beq_iff_eq.1 (List.mem_filter.1 hentry).2]
    rfl
  refine List.Nodup.of_map (id, ·) ?_
  rw [hnode]
  exact h.sublist (List.filter_sublist.map _)

theorem answers_matching (log : ListenerLog) (id : NodeId) (owner event : String) :
    log.answers.matching id owner event = (log.on id).filter fun l => l.owner == owner && l.event == event := by
  simp only [answers, on, List.filter_map, List.filter_filter]
  refine congrArg _ (List.filter_congr fun entry _ => ?_)
  cases entry.1 == id <;> simp

theorem answers_countOn (log : ListenerLog) (id : NodeId) : log.answers.countOn id = (log.on id).length := by
  simp only [answers, on, List.length_map, List.countP_eq_length_filter]

theorem answers_replaces (log : ListenerLog) (id : NodeId) (l : Listener) :
    log.answers.replaces id l = (log.on id).any (sameSlot · l) := by
  simp only [answers, on, List.any_map, List.any_filter]
  rfl

/-- As many listeners go with some nodes as there are fewer afterwards. -/
theorem answers_countPurged (log : ListenerLog) (ids : List NodeId) :
    log.answers.countPurged ids = log.length - (log.perform (.purge ids)).length := by
  have hall := List.length_eq_countP_add_countP (l := log) (fun entry => ids.contains entry.1)
  have hkept : (log.perform (.purge ids)).length = log.countP (fun entry => !ids.contains entry.1) :=
    List.countP_eq_length_filter.symm
  rw [hkept]
  simp only [answers, Bool.not_eq_true, Bool.decide_eq_false] at hall ⊢
  omega

end ListenerLog

namespace ListenerStore

variable {s : ListenerStore} {log : ListenerLog}

def perform (s : ListenerStore) : ListenerCall → ListenerStore
  | .install id listener => s.install id listener
  | .purge ids => s.purge ids

def run (calls : List ListenerCall) : ListenerStore := calls.foldl perform empty

def answers (s : ListenerStore) : ListenerAnswers := ⟨s.matching, s.countOn, s.size, s.replaces, s.countPurged⟩

/-- The store and the list have the same listeners on every node, in the same order. -/
def Follows (s : ListenerStore) (log : ListenerLog) : Prop := ∀ id, s.on id = log.on id

theorem Follows.perform (h : s.Follows log) (call : ListenerCall) : (s.perform call).Follows (log.perform call) := by
  intro id
  cases call with
  | purge ids => rw [ListenerStore.perform, on_purge, ListenerLog.on_purge, h id]
  | install other l =>
    rw [ListenerStore.perform]
    by_cases he : id = other
    · rw [he, on_install_self, ListenerLog.on_install_self, h other]
    · rw [on_install_of_ne s he, ListenerLog.on_install_of_ne log he, h id]

theorem follows_run (calls : List ListenerCall) : (run calls).Follows (ListenerLog.run calls) := by
  unfold run ListenerLog.run
  induction calls using List.reverseRecOn with
  | nil => exact fun _ => rfl
  | append_singleton calls call ih =>
    rw [List.foldl_append, List.foldl_append]
    exact ih.perform call

theorem size_eq (s : ListenerStore) : s.size = (s.nodes.flatMap fun entry => entry.2.map (entry.1, ·)).length := by
  have hfold : ∀ (nodes : List (NodeId × List Listener)) (n : Nat),
      nodes.foldl (fun n entry => n + entry.2.length) n =
        n + (nodes.flatMap fun entry => entry.2.map (entry.1, ·)).length := by
    intro nodes
    induction nodes with
    | nil => exact fun n => rfl
    | cons entry nodes ih =>
      intro n
      rw [List.foldl_cons, ih, List.flatMap_cons, List.length_append, List.length_map, Nat.add_assoc]
  exact (hfold s.nodes 0).trans (Nat.zero_add _)

theorem Follows.size (h : s.Follows log) : s.size = log.length :=
  (size_eq s).trans (Association.flatMap_perm _ _ s.nodup_nodes fun id => List.Perm.of_eq (h id)).length_eq

theorem Follows.answers (h : s.Follows log) : s.answers = log.answers := by
  have hmatching : s.matching = log.answers.matching := by
    funext id owner event
    rw [ListenerLog.answers_matching, matching, h id]
  have hcountOn : s.countOn = log.answers.countOn := by
    funext id
    rw [ListenerLog.answers_countOn, countOn, h id]
  have hreplaces : s.replaces = log.answers.replaces := by
    funext id l
    rw [ListenerLog.answers_replaces, replaces, h id]
  have hcountPurged : s.countPurged = log.answers.countPurged := by
    funext ids
    rw [ListenerLog.answers_countPurged, countPurged, h.size, ← (h.perform (.purge ids)).size]
    rfl
  rw [ListenerStore.answers, hmatching, hcountOn, h.size, hreplaces, hcountPurged]
  rfl

end ListenerStore

/-- The listeners of one node, those for each event in a queue of their own. -/
abbrev ListenerQueues := List (String × List Listener)

namespace ListenerQueues

open ListenerStore (sameSlot reinstalled)

variable {queues : ListenerQueues} {present : List Listener}

/-- Takes whatever gives way to a listener out of all queues. No queue is left empty. -/
def clear (listener : Listener) (queues : ListenerQueues) : ListenerQueues :=
  (queues.map fun queue => (queue.1, queue.2.filter (!sameSlot · listener))).filter (!·.2.isEmpty)

def install (listener : Listener) (queues : ListenerQueues) : ListenerQueues :=
  Association.update listener.event (fun queue => queue.getD [] ++ [listener]) (clear listener queues)

/-- Each queue has the listeners for its event in the order in which they are present on the node. -/
structure Holds (queues : ListenerQueues) (present : List Listener) : Prop where
  nodup_events : (queues.map (·.1)).Nodup
  queue : ∀ event, (queues.lookup event).getD [] = present.filter (·.event == event)

theorem Holds.perm (h : queues.Holds present) : (queues.flatMap (·.2)).Perm present := by
  have hall := Association.flatMap_perm queues (present.map fun l => (l.event, l)) h.nodup_events fun event => by
    rw [h.queue event, List.filter_map, List.map_map]
    exact List.Perm.of_eq (List.map_id _).symm
  have hsnd := hall.map (·.2)
  rw [List.map_flatMap, List.map_map] at hsnd
  simpa [Function.comp_def] using hsnd

theorem lookup_clear (l : Listener) (hnodup : (queues.map (·.1)).Nodup) (event : String) :
    ((clear l queues).lookup event).getD [] = ((queues.lookup event).getD []).filter (!sameSlot · l) := by
  have hkept : ∀ qs : ListenerQueues, (qs.map (·.1)).Nodup →
      ((qs.filter (!·.2.isEmpty)).lookup event).getD [] = (qs.lookup event).getD [] := by
    intro qs hqs
    induction qs with
    | nil => rfl
    | cons q qs ih =>
      obtain ⟨name, present⟩ := q
      obtain ⟨hnot, hrest⟩ := List.nodup_cons.1 hqs
      cases hempty : present.isEmpty with
      | false =>
        rw [List.filter_cons_of_pos (by simp [hempty]), List.lookup_cons, List.lookup_cons]
        cases event == name with
        | true => rfl
        | false => exact ih hrest
      | true =>
        rw [List.filter_cons_of_neg (by simp [hempty]), ih hrest, List.lookup_cons]
        cases hevent : event == name with
        | false => rfl
        | true =>
          -- no other queue is for this event, so that nothing is found in either list
          have hnone : qs.lookup event = none := List.lookup_eq_none_iff.2 fun e he => by
            exact bne_iff_ne.2 fun heq => hnot (List.mem_map.2 ⟨e, he, heq.symm.trans (beq_iff_eq.1 hevent)⟩)
          rw [hnone, Option.getD_none, Option.getD_some, List.isEmpty_iff.1 hempty]
  rw [clear, hkept, Association.lookup_map]
  · cases queues.lookup event <;> rfl
  · rwa [List.map_map]

theorem Holds.install (h : queues.Holds present) (l : Listener) : (queues.install l).Holds (reinstalled l present) where
  nodup_events := by
    refine Association.nodup_keys_update _ _ (Association.nodup_keys_filter _ ?_)
    rw [List.map_map]
    exact h.nodup_events
  queue event := by
    have hclear := lookup_clear l h.nodup_events event
    rw [reinstalled, List.filter_append, ListenerQueues.install]
    by_cases he : event = l.event
    · subst he
      rw [Association.lookup_update_self, Option.getD_some, hclear, h.queue, List.filter_comm]
      simp
    · rw [Association.lookup_update_of_ne he, hclear, h.queue, List.filter_comm]
      simp [Ne.symm he]

end ListenerQueues

/-- The listeners of each node in queues. -/
abbrev ListenerTable := List (NodeId × ListenerQueues)

namespace ListenerTable

open ListenerStore (sameSlot)

variable {table : ListenerTable} {log : ListenerLog}

def perform (table : ListenerTable) : ListenerCall → ListenerTable
  | .install id listener => Association.update id (fun queues => (queues.getD []).install listener) table
  | .purge ids => table.filter (!ids.contains ·.1)

def run (calls : List ListenerCall) : ListenerTable := calls.foldl perform []

/-- The queues of one node. -/
def on (table : ListenerTable) (id : NodeId) : ListenerQueues := (table.lookup id).getD []

def size (table : ListenerTable) : Nat := (table.map fun node => (node.2.map (·.2.length)).sum).sum

def answers (table : ListenerTable) : ListenerAnswers where
  matching id owner event := (((table.on id).lookup event).getD []).filter (·.owner == owner)
  countOn id := ((table.on id).map (·.2.length)).sum
  size := table.size
  replaces id listener := (table.on id).any (·.2.any (sameSlot · listener))
  countPurged ids := size (table.filter (ids.contains ·.1))

/-- The queues of every node hold the listeners that the list has for it. -/
structure Follows (table : ListenerTable) (log : ListenerLog) : Prop where
  nodup_nodes : (table.map (·.1)).Nodup
  on : ∀ id, (table.on id).Holds (log.on id)

theorem Follows.perform (h : table.Follows log) (call : ListenerCall) :
    (table.perform call).Follows (log.perform call) := by
  cases call with
  | purge ids =>
    refine ⟨Association.nodup_keys_filter _ h.nodup_nodes, fun id => ?_⟩
    have hlookup := Association.lookup_filter (fun node => !ids.contains node) id table
    rw [ListenerLog.on_purge, ListenerTable.perform, ListenerTable.on, hlookup]
    cases ids.contains id with
    | true => exact ⟨List.nodup_nil, fun _ => rfl⟩
    | false => exact h.on id
  | install id l =>
    refine ⟨Association.nodup_keys_update _ _ h.nodup_nodes, fun other => ?_⟩
    rw [ListenerTable.perform, ListenerTable.on]
    by_cases he : other = id
    · rw [he, ListenerLog.on_install_self, Association.lookup_update_self, Option.getD_some]
      exact (h.on id).install l
    · rw [ListenerLog.on_install_of_ne log he, Association.lookup_update_of_ne he]
      exact h.on other

theorem follows_run (calls : List ListenerCall) : (run calls).Follows (ListenerLog.run calls) := by
  unfold run ListenerLog.run
  induction calls using List.reverseRecOn with
  | nil => exact ⟨List.nodup_nil, fun _ => ⟨List.nodup_nil, fun _ => rfl⟩⟩
  | append_singleton calls call ih =>
    rw [List.foldl_append, List.foldl_append]
    exact ih.perform call

theorem Follows.size (h : table.Follows log) : table.size = log.length := by
  have hperm := Association.flatMap_perm (table.map fun node => (node.1, node.2.flatMap (·.2))) log
    (by rw [List.map_map]; exact h.nodup_nodes) fun id => by
      rw [Association.lookup_map]
      have hnode := (h.on id).perm
      rw [ListenerTable.on] at hnode
      cases hlookup : table.lookup id <;> rw [hlookup] at hnode <;> exact hnode
  rw [ListenerTable.size, ← hperm.length_eq]
  simp [List.length_flatMap, Function.comp_def]

theorem Follows.answers (h : table.Follows log) : table.answers = log.answers := by
  have hmatching : table.answers.matching = log.answers.matching := by
    funext id owner event
    simp only [ListenerLog.answers_matching, ListenerTable.answers, (h.on id).queue, List.filter_filter]
  have hcountOn : table.answers.countOn = log.answers.countOn := by
    funext id
    rw [ListenerLog.answers_countOn, ← (h.on id).perm.length_eq, List.length_flatMap]
    rfl
  have hreplaces : table.answers.replaces = log.answers.replaces := by
    funext id l
    rw [ListenerLog.answers_replaces, ← (h.on id).perm.any_eq, List.any_flatMap]
    rfl
  have hcountPurged : table.answers.countPurged = log.answers.countPurged := by
    funext ids
    have hparts : ListenerTable.size (table.filter (ids.contains ·.1)) +
        ListenerTable.size (table.filter (!ids.contains ·.1)) = table.size := by
      have hperm := (List.filter_append_perm (ids.contains ·.1) table).map fun node => (node.2.map (·.2.length)).sum
      rw [List.map_append] at hperm
      exact List.sum_append.symm.trans hperm.sum_eq
    have hleft : ListenerTable.size (table.filter (!ids.contains ·.1)) = _ := (h.perform (.purge ids)).size
    rw [ListenerLog.answers_countPurged, ← h.size, ← hleft, ← hparts, Nat.add_sub_cancel]
    rfl
  calc table.answers
      = ⟨table.answers.matching, table.answers.countOn, table.size, table.answers.replaces, table.answers.countPurged⟩ := rfl
    _ = log.answers := by
      rw [hmatching, hcountOn, h.size, hreplaces, hcountPurged]
      rfl

end ListenerTable

/-- After any calls the store answers as the list of all listeners does, and as a table of queues does. No node has two
listeners for one owner and slot. -/
theorem ListenerStore.answers_run (calls : List ListenerCall) :
    (run calls).answers = (ListenerLog.run calls).answers ∧
      (ListenerTable.run calls).answers = (ListenerLog.run calls).answers ∧
      ∀ id, (((run calls).on id).map fun l => (l.owner, l.slot)).Nodup := by
  refine ⟨(follows_run calls).answers, (ListenerTable.follows_run calls).answers, fun id => ?_⟩
  rw [follows_run calls id]
  exact ListenerLog.nodup_on (ListenerLog.nodup_run calls) id

end ViewBinding
