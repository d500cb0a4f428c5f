import BfMultiplayer.GuardedRuns
import Mathlib.Algebra.BigOperators.Group.List.Basic
import Mathlib.Algebra.Order.Ring.Nat
import Mathlib.Data.List.Basic

/-!
# The ring of log lines

A line is allocated before the oldest ones are removed for it. The space that
is free then is what the call before has left, which is 256 bytes more than
the line of that call and not the line to be stored. The heap counts bytes.
-/

namespace BfMultiplayer.LogRing

open GuardedRuns

/-- `LogType`. -/
inductive LogType where
  | Log
  | Warning
  | Error
  deriving DecidableEq

/-- `sMaxLines`. -/
def sMaxLines : ℕ := 8192

/-- The bytes of `sLogHeap`. -/
def heapSize : ℕ := 1024 * 256

/-- The bytes that `allocBuffer` leaves for lines. -/
def lineCapacity : ℕ := heapSize - sMaxLines * 8

/-- An allocated line. -/
structure LogLine where
  /-- The byte in front of the text. -/
  type : LogType
  /-- The bytes of the allocation. -/
  bytes : ℕ
  deriving DecidableEq

/-- The log heap with the lines in it. -/
structure State where
  /-- `getFreeSize`. -/
  free : ℕ
  /-- `sLogLines`, the oldest line first. -/
  sLogLines : List LogLine
  deriving DecidableEq

/-- A call of `addLog`. -/
structure Call where
  /-- `type`. -/
  type : LogType
  /-- `len`. -/
  len : ℕ
  /-- The line with its slack is no longer than the heap. -/
  fits : len + 256 ≤ heapSize

/-- The line of a call. -/
def Call.line (call : Call) : LogLine := ⟨call.type, call.len + 2⟩

/-- `initializeLog`, up to its own line. -/
def initializeLog : State := ⟨lineCapacity, []⟩

/-- `alloc`. -/
def alloc (bytes : ℕ) (s : State) : Option State :=
  if bytes ≤ s.free then some { s with free := s.free - bytes } else none

/-- The oldest line has to go before one of this length is stored. -/
def MustEvict (len lines free : ℕ) : Prop := sMaxLines ≤ lines ∨ free < len + 256

instance (len lines free : ℕ) : Decidable (MustEvict len lines free) :=
  inferInstanceAs (Decidable (_ ∨ _))

/-- The loop of `addLog`. There is no result when a line is popped from an empty list. -/
def evictLines (len : ℕ) : ℕ → List LogLine → Option State
  | free, [] => if MustEvict len 0 free then none else some ⟨free, []⟩
  | free, line :: lines =>
    if MustEvict len (lines.length + 1) free then evictLines len (free + line.bytes) lines
    else some ⟨free, line :: lines⟩

/-- `addLog`. There is no result either when the type is written to a null pointer. -/
def addLog (s : State) (call : Call) : Option State := do
  let s ← alloc (call.len + 2) s
  let s ← evictLines call.len s.free s.sLogLines
  return { s with sLogLines := s.sLogLines ++ [call.line] }

/-- A call stores its line behind the other ones, of which the oldest have been removed. -/
def StoresLine (s : State) (call : Call) : Prop :=
  ∃ t, addLog s call = some t ∧ t.sLogLines.length ≤ sMaxLines ∧
    ∃ k, t.sLogLines = s.sLogLines.drop k ++ [call.line]

/-- The bytes of some lines. -/
def bytesOf (lines : List LogLine) : ℕ := (lines.map LogLine.bytes).sum

/-- The bytes of the lines of some calls. -/
def bytesFor (calls : List Call) : ℕ := bytesOf (calls.map Call.line)

/-- Calls whose lines are in the ring together: when each of them was made, there was room for its
line and its slack next to the lines before it. -/
def FitTogether (calls : List Call) : Prop :=
  ∀ before call, before ++ [call] <+: calls →
    bytesFor (before ++ [call]) + (call.len + 256) ≤ lineCapacity ∧ before.length < sMaxLines

/-- A line fits twice into the empty heap with its slack, and once next to all lines before it that
are in the ring together. -/
def HasRoom (past : List Call) (call : Call) : Prop :=
  2 * call.len + 258 ≤ lineCapacity ∧
    ∀ calls, calls <:+ past → FitTogether calls → bytesFor calls + (call.len + 2) ≤ lineCapacity

/-- Every byte for lines is free or in a line. -/
def Accounted (s : State) : Prop := s.free + bytesOf s.sLogLines = lineCapacity

/-- The bytes of one more line. -/
theorem bytesOf_cons (line : LogLine) (lines : List LogLine) :
    bytesOf (line :: lines) = line.bytes + bytesOf lines := by
  rw [bytesOf, List.map_cons, List.sum_cons]
  rfl

/-- The bytes of two lists. -/
theorem bytesOf_append (first rest : List LogLine) :
    bytesOf (first ++ rest) = bytesOf first + bytesOf rest := by
  rw [bytesOf, List.map_append, List.sum_append]
  rfl

/-- The loop ends exactly when the empty heap has room for the slack. -/
theorem evictLines_isSome_iff (len free : ℕ) (lines : List LogLine) :
    (evictLines len free lines).isSome ↔ len + 256 ≤ free + bytesOf lines := by
  induction lines generalizing free with
  | nil =>
    have hempty : MustEvict len 0 free ↔ free < len + 256 := by
      rw [MustEvict, sMaxLines]
      omega
    have hbytes : bytesOf [] = 0 := rfl
    rw [evictLines, hbytes]
    split_ifs with hevict
    · have hlt := hempty.mp hevict
      exact iff_of_false (fun h => nomatch h) (by omega)
    · have hge : ¬free < len + 256 := fun hlt => hevict (hempty.mpr hlt)
      exact iff_of_true rfl (by omega)
  | cons line lines ih =>
    rw [evictLines, bytesOf_cons]
    split_ifs with hevict
    · rw [ih, Nat.add_assoc]
    · have hge : ¬free < len + 256 := fun hlt => hevict (Or.inr hlt)
      exact iff_of_true rfl (by omega)

/-- What the loop leaves: some of the newest lines, the bytes of the others free, and room for the
slack and for one line more. -/
theorem evictLines_spec {len free : ℕ} {lines : List LogLine} {t : State}
    (h : evictLines len free lines = some t) :
    (∃ k, t.sLogLines = lines.drop k) ∧ t.free + bytesOf t.sLogLines = free + bytesOf lines ∧
      t.sLogLines.length < sMaxLines ∧ len + 256 ≤ t.free := by
  induction lines generalizing free with
  | nil =>
    rw [evictLines] at h
    split_ifs at h with hevict
    cases h
    refine ⟨⟨0, rfl⟩, rfl, Nat.succ_pos _, ?_⟩
    exact Nat.le_of_not_lt fun hlt => hevict (Or.inr hlt)
  | cons line lines ih =>
    rw [evictLines] at h
    split_ifs at h with hevict
    · obtain ⟨⟨k, hdrop⟩, hbytes, hlength⟩ := ih h
      refine ⟨⟨k + 1, hdrop⟩, ?_, hlength⟩
      rw [hbytes, bytesOf_cons]
      omega
    · cases h
      refine ⟨⟨0, rfl⟩, rfl, ?_, ?_⟩
      · exact Nat.lt_of_not_le fun hfull => hevict (Or.inl hfull)
      · exact Nat.le_of_not_lt fun hlt => hevict (Or.inr hlt)

/-- It removes no more than it has to. -/
theorem evictLines_keeps {len free : ℕ} {lines kept : List LogLine} {t : State}
    (h : evictLines len free lines = some t) (hkept : kept <:+ lines)
    (hlength : kept.length < sMaxLines)
    (hbytes : len + 256 + bytesOf kept ≤ free + bytesOf lines) : kept <:+ t.sLogLines := by
  induction lines generalizing free with
  | nil =>
    rw [List.suffix_nil.mp hkept]
    exact List.nil_suffix
  | cons line lines ih =>
    rw [evictLines] at h
    split_ifs at h with hevict
    · rcases List.suffix_cons_iff.mp hkept with rfl | hsuffix
      · rw [List.length_cons] at hlength
        exact absurd hevict (not_or.mpr ⟨by omega, by omega⟩)
      · rw [bytesOf_cons] at hbytes
        exact ih h hsuffix (by omega)
    · cases h
      exact hkept

/-- A call of `addLog`, from its parts. -/
theorem addLog_eq_some_iff {s t : State} {call : Call} :
    addLog s call = some t ↔ call.len + 2 ≤ s.free ∧
      ∃ u, evictLines call.len (s.free - (call.len + 2)) s.sLogLines = some u ∧
        t = ⟨u.free, u.sLogLines ++ [call.line]⟩ := by
  by_cases hroom : call.len + 2 ≤ s.free
  · have hcall : addLog s call =
        (evictLines call.len (s.free - (call.len + 2)) s.sLogLines).bind fun u =>
          some ⟨u.free, u.sLogLines ++ [call.line]⟩ := by
      rw [addLog, alloc, if_pos hroom]
      rfl
    rw [hcall, Option.bind_eq_some_iff, and_iff_right hroom]
    refine exists_congr fun u => and_congr_right fun _ => ?_
    rw [Option.some.injEq, eq_comm]
  · have hcall : addLog s call = none := by
      rw [addLog, alloc, if_neg hroom]
      rfl
    rw [hcall]
    exact iff_of_false (fun h => nomatch h) fun h => hroom h.1

/-- A call keeps the account of the bytes. -/
theorem addLog_accounted {s t : State} {call : Call} (h : Accounted s)
    (hcall : addLog s call = some t) : Accounted t := by
  obtain ⟨hroom, u, hu, rfl⟩ := addLog_eq_some_iff.mp hcall
  obtain ⟨-, hbytes, -⟩ := evictLines_spec hu
  have hline : bytesOf [call.line] = call.len + 2 := rfl
  rw [Accounted] at h ⊢
  dsimp only
  rw [bytesOf_append, hline]
  omega

/-- A call stores its line exactly when there is room for it before the loop, and the loop can make
room for the slack. -/
theorem storesLine_iff_free {s : State} (h : Accounted s) (call : Call) :
    StoresLine s call ↔ call.len + 2 ≤ s.free ∧ 2 * call.len + 258 ≤ lineCapacity := by
  rw [Accounted] at h
  constructor
  · rintro ⟨t, ht, -, -⟩
    obtain ⟨hroom, u, hu, -⟩ := addLog_eq_some_iff.mp ht
    have hends := (evictLines_isSome_iff _ _ _).mp (Option.isSome_of_eq_some hu)
    exact ⟨hroom, by omega⟩
  · rintro ⟨hroom, hslack⟩
    have hends : (evictLines call.len (s.free - (call.len + 2)) s.sLogLines).isSome :=
      (evictLines_isSome_iff _ _ _).mpr (by omega)
    obtain ⟨u, hu⟩ := Option.isSome_iff_exists.mp hends
    obtain ⟨⟨k, hdrop⟩, -, hlength, -⟩ := evictLines_spec hu
    refine ⟨_, addLog_eq_some_iff.mpr ⟨hroom, u, hu, rfl⟩, ?_, k, ?_⟩
    · dsimp only
      rw [List.length_append, List.length_singleton]
      exact hlength
    · dsimp only
      rw [hdrop]

/-- The bytes of two lists of calls. -/
theorem bytesFor_append (first rest : List Call) :
    bytesFor (first ++ rest) = bytesFor first + bytesFor rest := by
  rw [bytesFor, List.map_append, bytesOf_append]
  rfl

/-- The last calls need no more bytes than all. -/
theorem bytesFor_le_of_suffix {calls past : List Call} (h : calls <:+ past) :
    bytesFor calls ≤ bytesFor past := by
  obtain ⟨first, rfl⟩ := h
  rw [bytesFor_append]
  omega

/-- Without its first lines the ring still fits. -/
theorem FitTogether.of_suffix {calls past : List Call} (h : FitTogether past)
    (hsuffix : calls <:+ past) : FitTogether calls := by
  obtain ⟨first, rfl⟩ := hsuffix
  intro before call hprefix
  have hlonger : (first ++ before) ++ [call] <+: first ++ calls := by
    rw [List.append_assoc]
    exact (List.prefix_append_right_inj first).mpr hprefix
  obtain ⟨hbytes, hlength⟩ := h _ call hlonger
  rw [List.append_assoc, bytesFor_append, Nat.add_assoc] at hbytes
  rw [List.length_append] at hlength
  exact ⟨(Nat.le_add_left _ _).trans hbytes, by omega⟩

/-- Without its last lines it does, too. -/
theorem FitTogether.of_prefix {calls past : List Call} (h : FitTogether past)
    (hcalls : calls <+: past) : FitTogether calls :=
  fun before call hcall => h before call (hcall.trans hcalls)

/-- The ring after some calls has the lines of the last ones, as many as fit together. -/
structure RingOf (past : List Call) (s : State) : Prop where
  /-- The bytes are accounted for. -/
  accounted : Accounted s
  /-- The lines are the longest end of the calls that fits. -/
  longest : ∃ kept, s.sLogLines = kept.map Call.line ∧ kept <:+ past ∧ FitTogether kept ∧
    ∀ calls, calls <:+ past → FitTogether calls → calls <:+ kept

/-- The ring is empty at first. -/
theorem ringOf_nil : RingOf [] initializeLog where
  accounted := Nat.add_zero lineCapacity
  longest := ⟨[], rfl, List.suffix_rfl,
    fun before call h => absurd (List.prefix_nil.mp h) (List.concat_ne_nil call before),
    fun _ h _ => h⟩

/-- The end of a list with one call more. -/
theorem suffix_concat {calls past : List Call} (h : calls <:+ past) (call : Call) :
    calls ++ [call] <:+ past ++ [call] := by
  obtain ⟨first, rfl⟩ := h
  exact ⟨first, (List.append_assoc _ _ _).symm⟩

/-- A call keeps the longest end of the calls that fits. -/
theorem RingOf.step {past : List Call} {s t : State} {call : Call} (h : RingOf past s)
    (hcall : addLog s call = some t) : RingOf (past ++ [call]) t := by
  refine ⟨addLog_accounted h.accounted hcall, ?_⟩
  obtain ⟨kept, hlines, hsuffix, hfit, hlongest⟩ := h.longest
  have haccount := h.accounted
  obtain ⟨hroom, u, hu, rfl⟩ := addLog_eq_some_iff.mp hcall
  obtain ⟨⟨k, hdrop⟩, hbytes, hlength, hslack⟩ := evictLines_spec hu
  rw [Accounted] at haccount
  have hall : bytesOf u.sLogLines + (call.len + 2) + u.free = lineCapacity := by omega
  have hstored : bytesOf u.sLogLines + (call.len + 2) + (call.len + 256) ≤ lineCapacity :=
    (Nat.add_le_add_left hslack _).trans hall.le
  have hkeptLines : u.sLogLines = (kept.drop k).map Call.line := by
    rw [hdrop, hlines, List.map_drop]
  have hkeptBytes : bytesFor (kept.drop k) = bytesOf u.sLogLines := by
    rw [bytesFor, ← hkeptLines]
  have hone : bytesFor [call] = call.len + 2 := rfl
  have hcount : (kept.drop k).length < sMaxLines := by
    rw [hkeptLines, List.length_map] at hlength
    exact hlength
  refine ⟨kept.drop k ++ [call], ?_, suffix_concat ((List.drop_suffix k kept).trans hsuffix) call,
    ?_, ?_⟩
  · dsimp only
    rw [hkeptLines, List.map_append]
    rfl
  · intro before last hprefix
    rcases List.prefix_concat_iff.mp hprefix with hwhole | hshorter
    · obtain ⟨rfl, hlast⟩ := List.append_inj' hwhole rfl
      cases hlast
      rw [bytesFor_append, hkeptBytes, hone]
      exact ⟨hstored, hcount⟩
    · exact hfit.of_suffix (List.drop_suffix k kept) before last hshorter
  · -- a longer end that fits would have been kept
    intro calls hcalls hcallsFit
    rcases List.eq_nil_or_concat calls with rfl | ⟨init, last, rfl⟩
    · exact List.nil_suffix
    · rw [List.concat_eq_append] at hcalls hcallsFit ⊢
      obtain ⟨first, hfirst⟩ := hcalls
      rw [← List.append_assoc] at hfirst
      obtain ⟨rfl, hlast⟩ := List.append_inj' hfirst rfl
      cases hlast
      obtain ⟨hinitBytes, hinitLength⟩ := hcallsFit init call List.prefix_rfl
      have hinit := hlongest init (List.suffix_append first init)
        (hcallsFit.of_prefix (List.prefix_append init [call]))
      have hinitLines : init.map Call.line <:+ s.sLogLines := by
        rw [hlines]
        exact hinit.map Call.line
      have hstays : init.map Call.line <:+ u.sLogLines := by
        refine evictLines_keeps hu hinitLines ?_ ?_
        · rw [List.length_map]
          exact hinitLength
        · rw [bytesFor_append, hone, bytesFor] at hinitBytes
          omega
      have hshort : init.length ≤ (kept.drop k).length := by
        have hle := hstays.length_le
        rw [hkeptLines, List.length_map, List.length_map] at hle
        exact hle
      exact suffix_concat (List.suffix_of_suffix_length_le hinit (List.drop_suffix k kept) hshort)
        call

/-- A call stores its line exactly when it has room after the messages before it. -/
theorem storesLine_iff {past : List Call} {s : State} (h : RingOf past s) (call : Call) :
    StoresLine s call ↔ HasRoom past call := by
  obtain ⟨kept, hlines, hsuffix, hfit, hlongest⟩ := h.longest
  have haccount := h.accounted
  rw [Accounted, hlines, ← bytesFor] at haccount
  rw [storesLine_iff_free h.accounted, HasRoom, and_comm]
  refine and_congr_right fun _ => ⟨?_, ?_⟩
  · intro hroom calls hcalls hcallsFit
    have hle := bytesFor_le_of_suffix (hlongest calls hcalls hcallsFit)
    omega
  · intro hroom
    have hkept := hroom kept hsuffix hfit
    omega

/-- A message has room when it is at most 254 characters longer than the one before it: that one
has left its slack. -/
theorem hasRoom_of_slack {past : List Call} {last call : Call}
    (hslack : call.len ≤ last.len + 254) (htwice : 2 * call.len + 258 ≤ lineCapacity) :
    HasRoom (past ++ [last]) call := by
  refine ⟨htwice, fun calls hcalls hfit => ?_⟩
  rcases List.eq_nil_or_concat calls with rfl | ⟨init, message, rfl⟩
  · have hnone : bytesFor [] = 0 := rfl
    omega
  · rw [List.concat_eq_append] at hcalls hfit ⊢
    obtain ⟨first, hfirst⟩ := hcalls
    rw [← List.append_assoc] at hfirst
    obtain ⟨-, hmessage⟩ := List.append_inj' hfirst rfl
    cases hmessage
    have hbytes := (hfit init last List.prefix_rfl).1
    omega

/-- The calls of a run all store their lines exactly when each of them has room after the messages
before it. -/
theorem lines_stored_iff (calls : List Call) :
    Along StoresLine addLog initializeLog calls ↔
      ∀ past call, past ++ [call] <+: calls → HasRoom past call := by
  have hdef : ∀ s call, StoresLine s call → (addLog s call).isSome := by
    rintro s call ⟨t, ht, -⟩
    exact Option.isSome_of_eq_some ht
  have hstep : ∀ past s call t, RingOf past s → addLog s call = some t →
      RingOf (past ++ [call]) t :=
    fun _ _ _ _ h hcall => h.step hcall
  exact along_iff_of_history hstep (fun _ _ call h => storesLine_iff h call) hdef ringOf_nil

/-- A line of 1022 characters. -/
def shortCall : Call := ⟨.Log, 1022, by decide⟩

/-- A line of 3000 characters. -/
def longCall : Call := ⟨.Log, 3000, by decide⟩

/-- With the short lines 2048 bytes are left free, too few for the long one. -/
theorem longCall_not_stored :
    (run addLog initializeLog (List.replicate 190 shortCall)).isSome = true ∧
      run addLog initializeLog (List.replicate 190 shortCall ++ [longCall]) = none ∧
      ¬Along StoresLine addLog initializeLog (List.replicate 190 shortCall ++ [longCall]) := by
  have hnone : (run addLog initializeLog
      (List.replicate 190 shortCall ++ [longCall])).isNone = true := by
    decide +kernel
  have hsome : (run addLog initializeLog (List.replicate 190 shortCall)).isSome = true := by
    decide +kernel
  refine ⟨hsome, Option.isNone_iff_eq_none.mp hnone, fun h => ?_⟩
  obtain ⟨s, hs⟩ := Option.isSome_iff_exists.mp hsome
  obtain ⟨t, ht, -⟩ := along_last h hs
  rw [run_append, hs, Option.bind_some, run_cons, ht] at hnone
  cases hnone

end BfMultiplayer.LogRing
