import Bailout.Proofs.Trap.Growth

/-!
# Histories are digests of logs

All that a history is told about a method could be written into a log: each trap that counts, each
trap that the interpreter took, and each bytecode that caused a recompilation. The history keeps a
digest of it. A counter stays at its top, only the first bytecodes that need a record have one, and
a record knows at most one reason by name. Everything else in the digest is exact, and what it says
about the next trap never denies an earlier one.
-/

namespace Bailout

/-! ### Distinct elements -/

section Distinct

variable {α : Type} [DecidableEq α]

/-- The distinct elements of a list that is one longer, in order of their first occurrence. -/
lemma eraseDups_concat (l : List α) (a : α) :
    (l ++ [a]).eraseDups = if a ∈ l then l.eraseDups else l.eraseDups ++ [a] := by
  rw [List.eraseDups_append, List.removeAll]
  split_ifs with h
  · simp [h]
  · simp [h, List.eraseDups_cons]

/-- Of the distinct elements only the first few are taken: one more is taken as long as there is
room. -/
lemma take_eraseDups_concat (l : List α) (a : α) (k : Nat) :
    (l ++ [a]).eraseDups.take k =
      if a ∉ l.eraseDups.take k ∧ (l.eraseDups.take k).length < k then
        l.eraseDups.take k ++ [a]
      else l.eraseDups.take k := by
  rw [eraseDups_concat, List.length_take]
  by_cases ha : a ∈ l
  · rw [if_pos ha, if_neg]
    rintro ⟨hnot, hlt⟩
    rw [List.take_of_length_le (by omega), List.mem_eraseDups] at hnot
    exact hnot ha
  · have hnot : a ∉ l.eraseDups.take k :=
      fun h => ha (List.mem_eraseDups.1 (List.mem_of_mem_take h))
    rw [if_neg ha]
    by_cases hlt : l.eraseDups.length < k
    · rw [if_pos ⟨hnot, by omega⟩, List.take_of_length_le (by simp; omega),
        List.take_of_length_le (by omega)]
    · rw [if_neg (by omega), List.take_append_of_le_length (by omega)]

end Distinct

/-! ### Tables -/

namespace Table

variable {κ ν : Type} [DecidableEq κ]

lemma contains_iff_mem_keys (t : Table κ ν) {k : κ} : t.contains k = true ↔ k ∈ t.keys := by
  simp [contains, get?, keys]

omit [DecidableEq κ] in
lemma length_keys (t : Table κ ν) : t.keys.length = t.size := List.length_map _

lemma keys_set (t : Table κ ν) (k : κ) (v : ν) :
    (t.set k v).keys = if k ∈ t.keys then t.keys else t.keys ++ [k] := by
  obtain ⟨es⟩ := t
  induction es with
  | nil => rfl
  | cons e es ih =>
    by_cases hk : e.1 = k
    · simp [set, setIn, keys, hk]
    · have hset : (set ⟨e :: es⟩ k v).keys = e.1 :: (set ⟨es⟩ k v).keys := by
        simp [set, setIn, keys, hk]
      have hkeys : keys ⟨e :: es⟩ = e.1 :: keys ⟨es⟩ := rfl
      rw [hset, ih]
      by_cases hmem : k ∈ keys ⟨es⟩
      · simp [hkeys, hmem]
      · simp [hkeys, hmem, Ne.symm hk]

end Table

/-! ### What a record remembers of reasons -/

namespace Seen

/-- What is remembered of the reasons that were recorded: that there was none, the only one, or that
there were several. -/
def ofReasons (rs : List Reason) : Seen :=
  match rs.eraseDups with
  | [] => nothing
  | [r] => one r
  | _ => many

variable {rs : List Reason} {q : Reason}

lemma ofReasons_concat (rs : List Reason) (q : Reason) :
    ofReasons (rs ++ [q]) = (ofReasons rs).add q := by
  simp only [ofReasons, eraseDups_concat, ← List.mem_eraseDups (l := rs)]
  rcases rs.eraseDups with _ | ⟨r, _ | ⟨s, ss⟩⟩
  · rfl
  · by_cases hq : q = r
    · simp [add, hq]
    · simp [add, hq, Ne.symm hq]
  · split_ifs <;> rfl

/-- A reason is not denied if it was recorded, or if several were and names are forgotten. -/
lemma has_ofReasons {b : Bool} :
    (TrapState.has ⟨ofReasons rs, b⟩ q).toBool = true ↔ q ∈ rs ∨ 1 < rs.eraseDups.length := by
  simp only [TrapState.has, ofReasons, ← List.mem_eraseDups (l := rs)]
  rcases rs.eraseDups with _ | ⟨r, _ | ⟨s, ss⟩⟩
  · simp [Answer.toBool]
  · by_cases hq : q = r
    · simp [Answer.toBool, hq]
    · simp [Answer.toBool, hq, Ne.symm hq]
  · simp [Answer.toBool]

end Seen

/-! ### Logs -/

/-- Something that a history is told. -/
inductive Entry where
  /-- A trap that counts, in a method whose code was invalidated a number of times. -/
  | counted (decompiles bci : Nat) (reason : Reason)
  /-- A trap that the interpreter took. -/
  | interpreted (decompiles bci : Nat) (reason : Reason)
  /-- A bytecode caused a recompilation. -/
  | recompiled (bci : Nat)
  deriving DecidableEq, Repr

namespace Entry

def isCounted : Entry → Bool
  | counted .. => true
  | _ => false

/-- A trap that counts, for a reason. -/
def counts (r : Reason) : Entry → Bool
  | counted _ _ q => q = r
  | _ => false

/-- The reason that is recorded at a bytecode. -/
def reasonAt? (bci : Nat) : Entry → Option Reason
  | counted _ b r | interpreted _ b r => if b = bci then r.standIn? else none
  | recompiled _ => none

/-- The bytecode whose record is needed. -/
def place? : Entry → Option Nat
  | counted _ b r | interpreted _ b r => r.standIn?.map fun _ => b
  | recompiled b => some b

lemma isCounted_of_counts {r : Reason} {e : Entry} (h : e.counts r = true) :
    e.isCounted = true := by
  cases e with
  | counted d bci q => rfl
  | _ => cases h

end Entry

/-- The reasons that were recorded at a bytecode. -/
def reasonsAt (bci : Nat) (log : List Entry) : List Reason := log.filterMap (Entry.reasonAt? bci)

/-- The distinct bytecodes that needed a record, in order. -/
def places (log : List Entry) : List Nat := (log.filterMap Entry.place?).eraseDups

/-- What the record of a bytecode should say. -/
def stateAt (bci : Nat) (log : List Entry) : TrapState where
  seen := .ofReasons (reasonsAt bci log)
  recompiled := decide (.recompiled bci ∈ log)

section Concat

variable {log : List Entry} {e : Entry} {bci : Nat} {q : Reason}

lemma has_stateAt : ((stateAt bci log).has q).toBool = true ↔
    q ∈ reasonsAt bci log ∨ 1 < (reasonsAt bci log).eraseDups.length :=
  Seen.has_ofReasons

lemma mem_places : bci ∈ places log ↔ ∃ e ∈ log, e.place? = some bci := by
  rw [places, List.mem_eraseDups, List.mem_filterMap]

lemma places_concat_of_none (he : e.place? = none) : places (log ++ [e]) = places log := by
  simp [places, he]

/-- What is recorded elsewhere is not seen at a bytecode. -/
lemma stateAt_concat_of_ne (he : e.place? ≠ some bci) :
    stateAt bci (log ++ [e]) = stateAt bci log := by
  have hreason : e.reasonAt? bci = none := by
    cases e with
    | recompiled b => rfl
    | _ d b r =>
      rw [Entry.reasonAt?, ite_eq_right_iff]
      rintro rfl
      by_contra hr
      obtain ⟨q, hq⟩ := Option.ne_none_iff_exists'.1 hr
      exact he (by rw [Entry.place?, hq, Option.map_some])
  have hbit : .recompiled bci ≠ e := by
    rintro rfl
    exact he rfl
  simp [stateAt, reasonsAt, hreason, hbit]

lemma stateAt_concat_reason (he : e.reasonAt? bci = some q) :
    stateAt bci (log ++ [e]) = (stateAt bci log).add q := by
  have hbit : .recompiled bci ≠ e := by
    rintro rfl
    cases he
  simp [stateAt, TrapState.add, reasonsAt, he, hbit, Seen.ofReasons_concat]

lemma stateAt_concat_recompiled :
    stateAt bci (log ++ [.recompiled bci]) = (stateAt bci log).setRecompiled true := by
  have hreason : (Entry.recompiled bci).reasonAt? bci = none := rfl
  simp [stateAt, TrapState.setRecompiled, reasonsAt, hreason]

/-- Nothing is recorded at a bytecode that never needed a record. -/
lemma stateAt_of_notMem_places (h : bci ∉ places log) : stateAt bci log = {} := by
  induction log using List.reverseRecOn with
  | nil => rfl
  | append_singleton log e ih =>
    simp only [mem_places, not_exists, not_and] at h ih
    rw [stateAt_concat_of_ne (h e (by simp)), ih fun e he => h e (List.mem_append_left _ he)]

end Concat

namespace History

/-- Tell a history. -/
def note (h : History) : Entry → History
  | .counted d bci r => (h.query d bci r true).1
  | .interpreted d bci r => (h.query d bci r false).1
  | .recompiled bci =>
    (h.update? bci fun rec => { rec with state := rec.state.setRecompiled true }).getD h

/-- The history of a method for which a log was written. -/
def ofLog (capacity : Nat) (log : List Entry) : History := log.foldl note (.empty capacity)

variable {h h' : History} {log : List Entry} {e : Entry} {bci d : Nat} {r q : Reason}
  {f : Record → Record}

lemma hasRoom_iff : h.hasRoom bci = true ↔
    bci ∈ h.records.keys ∨ h.records.keys.length < h.capacity := by
  rw [hasRoom, Bool.or_eq_true, decide_eq_true_iff, Table.contains_iff_mem_keys, Table.length_keys]

/-! ### Records -/

/-- The first bytecodes that needed a record have one, and it says what it should. -/
structure Recorded (h : History) (log : List Entry) : Prop where
  keys : h.records.keys = (places log).take h.capacity
  state : ∀ bci rec, h.record? bci = some rec → rec.state = stateAt bci log

namespace Recorded

lemma congr (hl : h.Recorded log) (hrecords : h'.records = h.records)
    (hcapacity : h'.capacity = h.capacity) : h'.Recorded log where
  keys := by rw [hrecords, hcapacity, hl.keys]
  state bci rec hrec := hl.state bci rec (by rwa [record?, hrecords] at hrec)

/-- Where there is room, the record of a bytecode says what it should, also if the bytecode has none
yet. -/
lemma state_record (hl : h.Recorded log) (hroom : h.hasRoom bci = true) :
    (h.record bci).state = stateAt bci log := by
  cases hrec : h.record? bci with
  | some rec =>
    rw [record, hrec, Option.getD_some]
    exact hl.state bci rec hrec
  | none =>
    have hnot : bci ∉ h.records.keys := by
      rw [← Table.contains_iff_mem_keys, Table.contains, show h.records.get? bci = none from hrec]
      exact Bool.false_ne_true
    -- There are fewer records than there could be, so every bytecode that needs one has it.
    have hlt := (hasRoom_iff.1 hroom).resolve_left hnot
    rw [hl.keys] at hnot hlt
    rw [List.length_take] at hlt
    rw [List.take_of_length_le (by omega)] at hnot
    rw [record, hrec, stateAt_of_notMem_places hnot]
    rfl

/-- There is room for the record that an entry needs, as long as all that are needed have room. -/
lemma hasRoom (hl : h.Recorded log) (he : e.place? = some bci)
    (hle : (places (log ++ [e])).length ≤ h.capacity) : h.hasRoom bci = true := by
  rw [hasRoom_iff, hl.keys, List.length_take]
  simp only [places, List.filterMap_append, List.filterMap_cons, he, List.filterMap_nil,
    eraseDups_concat] at hle ⊢
  split_ifs at hle with hmem
  · left
    rwa [List.take_of_length_le hle, List.mem_eraseDups]
  · right
    rw [List.length_append, List.length_singleton] at hle
    omega

/-- An entry that needs no record changes none. -/
lemma skip (hl : h.Recorded log) (he : e.place? = none) : h.Recorded (log ++ [e]) where
  keys := by rw [places_concat_of_none he, hl.keys]
  state bci rec hrec := by
    rw [stateAt_concat_of_ne (by rw [he]; exact nofun)]
    exact hl.state bci rec hrec

/-- The record of a bytecode is changed as an entry asks, if there is room for the record. -/
lemma update (hl : h.Recorded log) (he : e.place? = some bci)
    (hf : ∀ rec : Record, rec.state = stateAt bci log →
      (f rec).state = stateAt bci (log ++ [e])) :
    ((h.update? bci f).getD h).Recorded (log ++ [e]) := by
  have hplaces : (places (log ++ [e])).take h.capacity =
      if bci ∉ h.records.keys ∧ h.records.keys.length < h.capacity then h.records.keys ++ [bci]
      else h.records.keys := by
    simp only [hl.keys, places, List.filterMap_append, List.filterMap_cons, he, List.filterMap_nil]
    exact take_eraseDups_concat _ _ _
  have hother : ∀ b ≠ bci, ∀ rec, h.record? b = some rec → rec.state = stateAt b (log ++ [e]) := by
    intro b hb rec hrec
    rw [stateAt_concat_of_ne (by rw [he]; simpa using Ne.symm hb)]
    exact hl.state b rec hrec
  by_cases hroom : h.hasRoom bci = true
  · rw [update?, if_pos hroom, Option.getD_some]
    refine ⟨?_, fun b rec hrec => ?_⟩
    · simp only [Table.keys_set, hplaces]
      by_cases hmem : bci ∈ h.records.keys
      · simp [hmem]
      · rw [if_neg hmem, if_pos ⟨hmem, (hasRoom_iff.1 hroom).resolve_left hmem⟩]
    · simp only [record?, Table.get?_set] at hrec
      split_ifs at hrec with hb
      · cases hrec
        rw [hb]
        exact hf _ (hl.state_record hroom)
      · exact hother b hb rec hrec
  · rw [update?, if_neg hroom, Option.getD_none]
    rw [hasRoom_iff, not_or] at hroom
    refine ⟨?_, fun b rec hrec => hother b ?_ rec hrec⟩
    · rw [hplaces, if_neg (fun h => hroom.2 h.2)]
    · rintro rfl
      refine hroom.1 ((Table.contains_iff_mem_keys _).1 ?_)
      rw [Table.contains, show h.records.get? b = some rec from hrec]
      rfl

end Recorded

/-! ### Traps -/

/-- The history after a trap for a reason that is recorded per bytecode. -/
lemma fst_query_of_some {counted : Bool} (hr : r.standIn? = some q) :
    (h.query d bci r counted).1 =
      ((if counted then h.countTrap r else h).update? bci
        fun rec => { rec with state := rec.state.add q }).getD
        (if counted then h.countTrap r else h) := by
  simp only [query, hr]
  split
  · next hu => rw [hu, Option.getD_none]
  · next hu => rw [hu, Option.getD_some]

lemma fst_query_of_none {counted : Bool} (hr : r.standIn? = none) :
    (h.query d bci r counted).1 = if counted then h.countTrap r else h := by
  simp only [query, hr]

lemma count_update : ((h.update? bci f).getD h).count = h.count := by
  unfold update?
  split_ifs
  · rfl
  · rfl

lemma count_query {counted : Bool} :
    (h.query d bci r counted).1.count = (if counted then h.countTrap r else h).count := by
  cases hr : r.standIn? with
  | none => rw [fst_query_of_none hr]
  | some q => rw [fst_query_of_some hr, count_update]

lemma capacity_update : ((h.update? bci f).getD h).capacity = h.capacity := by
  unfold update?
  split_ifs
  · rfl
  · rfl

lemma capacity_query {counted : Bool} : (h.query d bci r counted).1.capacity = h.capacity := by
  cases hr : r.standIn? with
  | none =>
    rw [fst_query_of_none hr]
    split_ifs <;> rfl
  | some q =>
    rw [fst_query_of_some hr, capacity_update]
    split_ifs <;> rfl

/-- A trap is recorded at its bytecode, if its reason is. -/
lemma Recorded.query {counted : Bool} (hl : h.Recorded log)
    (hplace : e.place? = r.standIn?.map fun _ => bci) (hreason : e.reasonAt? bci = r.standIn?) :
    (h.query d bci r counted).1.Recorded (log ++ [e]) := by
  have hcount : (if counted then h.countTrap r else h).Recorded log := by
    split_ifs
    · exact hl.congr rfl rfl
    · exact hl
  cases hr : r.standIn? with
  | none =>
    rw [hr] at hplace
    rw [fst_query_of_none hr]
    exact hcount.skip hplace
  | some q =>
    rw [hr] at hplace hreason
    rw [fst_query_of_some hr]
    exact hcount.update hplace fun rec hrec => by rw [stateAt_concat_reason hreason, ← hrec]

/-! ### Logs -/

/-- A history says what a digest of a log should: how many traps there were for each reason, as far
as counters go, and what was recorded at the first bytecodes that needed it. -/
structure Reflects (h : History) (log : List Entry) : Prop extends h.Recorded log where
  count : ∀ r, h.count r = min (log.countP (Entry.counts r)) (counterLimit - 1)

namespace Reflects

lemma empty (capacity : Nat) : Reflects (.empty capacity) [] where
  keys := by simp [History.empty, places, Table.keys]
  state bci rec hrec := by simp [History.empty, record?] at hrec
  count r := by simp [History.empty, History.count]

lemma congr (hl : h.Reflects log) (hcounts : h'.counts = h.counts)
    (hrecords : h'.records = h.records) (hcapacity : h'.capacity = h.capacity) :
    h'.Reflects log where
  toRecorded := hl.toRecorded.congr hrecords hcapacity
  count r := by rw [← hl.count r, History.count, History.count, hcounts]

lemma counted (hl : h.Reflects log) (d d' bci : Nat) (r : Reason) :
    (h.query d bci r true).1.Reflects (log ++ [.counted d' bci r]) where
  toRecorded := hl.toRecorded.query rfl (by simp [Entry.reasonAt?])
  count q := by
    rw [count_query, if_pos rfl, count_countTrap, hl.count, hl.count, List.countP_append,
      List.countP_singleton]
    by_cases hq : q = r
    · subst hq
      simp only [if_true, saturatingNext, Entry.counts, decide_true]
      omega
    · simp [Entry.counts, hq, Ne.symm hq]

lemma interpreted (hl : h.Reflects log) (d d' bci : Nat) (r : Reason) :
    (h.query d bci r false).1.Reflects (log ++ [.interpreted d' bci r]) where
  toRecorded := hl.toRecorded.query rfl (by simp [Entry.reasonAt?])
  count q := by
    rw [count_query, if_neg Bool.false_ne_true, hl.count, List.countP_append,
      List.countP_singleton]
    simp [Entry.counts]

lemma recompiled (hl : h.Reflects log) (bci : Nat) :
    ((h.update? bci fun rec => { rec with state := rec.state.setRecompiled true }).getD
      h).Reflects (log ++ [.recompiled bci]) where
  toRecorded := hl.toRecorded.update rfl fun rec hrec => by
    rw [stateAt_concat_recompiled, ← hrec]
  count q := by
    rw [count_update, hl.count, List.countP_append, List.countP_singleton]
    simp [Entry.counts]

/-- The history reflects one more entry after it was told. -/
lemma note (hl : h.Reflects log) (e : Entry) : (h.note e).Reflects (log ++ [e]) := by
  cases e with
  | counted d bci r => exact hl.counted d d bci r
  | interpreted d bci r => exact hl.interpreted d d bci r
  | recompiled bci => exact hl.recompiled bci

end Reflects

lemma capacity_note (h : History) (e : Entry) : (h.note e).capacity = h.capacity := by
  cases e with
  | recompiled bci => exact capacity_update
  | _ d bci r => exact capacity_query

lemma capacity_ofLog (k : Nat) (log : List Entry) : (ofLog k log).capacity = k := by
  induction log using List.reverseRecOn with
  | nil => rfl
  | append_singleton log e ih => rw [ofLog, List.foldl_concat, capacity_note, ← ofLog, ih]

/-- Whatever a new history is told, it reflects. -/
theorem reflects_ofLog (k : Nat) (log : List Entry) : (ofLog k log).Reflects log := by
  induction log using List.reverseRecOn with
  | nil => exact .empty k
  | append_singleton log e ih =>
    rw [ofLog, List.foldl_concat]
    exact ih.note e

/-! ### Snapshots -/

/-- Without a record a trap is judged by the method's counters alone. -/
lemma snd_query_of_unrecorded (hun : r.standIn? = none ∨ h.hasRoom bci = false) :
    (h.query d bci r true).2 = estimate (saturatingNext (h.count r)) (h.count r) d := by
  have hcount : (h.countTrap r).count r = saturatingNext (h.count r) := by
    rw [count_countTrap, if_pos rfl]
  simp only [query, if_true, hcount]
  cases hr : r.standIn? with
  | none => rfl
  | some q =>
    have hroom : (h.countTrap r).hasRoom bci = false := hun.resolve_left (by simp [hr])
    simp [update?, hroom]

/-- With a record, or room for one, a trap is judged by the record as well. -/
lemma snd_query_of_recorded (hr : r.standIn? = some q) (hroom : h.hasRoom bci = true) :
    (h.query d bci r true).2 =
      Snapshot.sharpen (estimate (saturatingNext (h.count r)) (h.count r) d) (h.record bci) q := by
  have hcount : (h.countTrap r).count r = saturatingNext (h.count r) := by
    rw [count_countTrap, if_pos rfl]
  have hroom : (h.countTrap r).hasRoom bci = true := hroom
  have hrecord : (h.countTrap r).record bci = h.record bci := rfl
  simp [query, hcount, hr, update?, hroom, hrecord]

/-- A trap that was seen before at its bytecode is not taken for the first one. -/
lemma Reflects.maybePriorTrap (hl : h.Reflects log) {d' : Nat} (hmem : .counted d' bci r ∈ log) :
    (h.query d bci r true).2.maybePriorTrap = true := by
  have hcount : h.count r ≠ 0 := by
    have hpos : 0 < log.countP (Entry.counts r) :=
      List.countP_pos_iff.2 ⟨_, hmem, by simp [Entry.counts]⟩
    have htop : 0 < counterLimit - 1 := by decide
    rw [hl.count r]
    omega
  by_cases hrec : r.standIn? = none ∨ h.hasRoom bci = false
  · rw [snd_query_of_unrecorded hrec]
    simpa [estimate] using hcount
  · rw [not_or, Bool.not_eq_false] at hrec
    obtain ⟨q, hq⟩ := Option.ne_none_iff_exists'.1 hrec.1
    rw [snd_query_of_recorded hq hrec.2, Snapshot.sharpen, hl.state_record hrec.2]
    have hhas : q ∈ reasonsAt bci log :=
      List.mem_filterMap.2 ⟨_, hmem, by simp [Entry.reasonAt?, hq]⟩
    simpa [estimate, hcount] using has_stateAt.2 (.inl hhas)

/-- A bytecode that caused a recompilation is suspected of it, once its method was charged. -/
lemma maybePriorRecompile_query {rec : Record} (hrec : h.record? bci = some rec)
    (hbit : rec.state.recompiled = true) (hd : d ≠ 0) :
    (h.query d bci r true).2.maybePriorRecompile = true := by
  have hrecord : h.record bci = rec := by rw [record, hrec, Option.getD_some]
  by_cases hun : r.standIn? = none ∨ h.hasRoom bci = false
  · rw [snd_query_of_unrecorded hun]
    simpa [estimate] using hd
  · rw [not_or, Bool.not_eq_false] at hun
    obtain ⟨q, hq⟩ := Option.ne_none_iff_exists'.1 hun.1
    rw [snd_query_of_recorded hq hun.2, Snapshot.sharpen, hrecord, hbit]
    simpa [estimate] using hd

/-- A history is a digest of what it was told, whatever the order. Its counts are exact as long as
counters suffice; records go to the first distinct bytecodes that need one and say which reasons
were recorded there, none, one or many, and whether the bytecode caused a recompilation. The next
trap that counts is called the first for its reason at its bytecode only if it is, and a bytecode
whose record says that it caused a recompilation is suspected of the next one. -/
theorem digest_ofLog (k : Nat) (log : List Entry)
    (hlog : log.countP Entry.isCounted < 2 ^ 32) :
    (∀ r, (ofLog k log).count r = log.countP (Entry.counts r)) ∧
    (ofLog k log).records.keys = (places log).take k ∧
    (∀ bci rec, (ofLog k log).record? bci = some rec →
      rec.state.seen = .ofReasons (reasonsAt bci log) ∧
      (rec.state.recompiled = true ↔ .recompiled bci ∈ log)) ∧
    ∀ d bci r,
      (((ofLog k log).query d bci r true).2.maybePriorTrap = false →
        ∀ d', .counted d' bci r ∉ log) ∧
      (∀ rec, (ofLog k log).record? bci = some rec → rec.state.recompiled = true → 0 < d →
        ((ofLog k log).query d bci r true).2.maybePriorRecompile = true) := by
  have hl := reflects_ofLog k log
  refine ⟨fun r => ?_, ?_, fun bci rec hrec => ?_, fun d bci r => ⟨fun hs d' hmem => ?_, ?_⟩⟩
  · have hle : log.countP (Entry.counts r) ≤ log.countP Entry.isCounted :=
      List.countP_mono_left fun _ _ => Entry.isCounted_of_counts
    have htop : counterLimit = 2 ^ 32 := rfl
    rw [hl.count]
    omega
  · rw [hl.keys, capacity_ofLog]
  · rw [hl.state bci rec hrec]
    exact ⟨rfl, decide_eq_true_iff⟩
  · rw [hl.maybePriorTrap hmem] at hs
    cases hs
  · intro rec hrec hbit hd
    exact maybePriorRecompile_query hrec hbit (Nat.ne_of_gt hd)

/-- Null checks fail at two bytecodes, of which one can have a record; that one sees another reason
from the interpreter, and both cause a recompilation. -/
def crowdedLog : List Entry :=
  [.counted 0 3 .nullCheck, .counted 0 5 .speculateNullCheck, .interpreted 0 3 .unstableIf,
    .recompiled 3, .recompiled 5, .counted 1 5 .speculateNullCheck]

/-- There is no record for the second bytecode. The method's counts stand in for it, and the trap is
not denied. -/
theorem digest_ofLog_crowded : crowdedLog.countP Entry.isCounted < 2 ^ 32 ∧
    (ofLog 1 crowdedLog).count .speculateNullCheck = 2 ∧
    (ofLog 1 crowdedLog).records.keys = [3] ∧
    (ofLog 1 crowdedLog).record? 3 = some { state := ⟨.many, true⟩ } ∧
    ((ofLog 1 crowdedLog).query 2 3 .classCheck true).2.maybePriorRecompile = true ∧
    ((ofLog 1 crowdedLog).query 2 5 .speculateNullCheck true).2.maybePriorTrap = true := by
  have hlog : crowdedLog.countP Entry.isCounted < 2 ^ 32 := by decide
  obtain ⟨hcount, hkeys, -, hnext⟩ := digest_ofLog 1 crowdedLog hlog
  refine ⟨hlog, hcount _, hkeys, rfl, (hnext 2 3 .classCheck).2 _ rfl rfl (by decide), ?_⟩
  by_contra hs
  exact (hnext 2 5 .speculateNullCheck).1 (by simpa using hs) 1 (by decide)

end History
end Bailout
