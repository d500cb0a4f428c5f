import BfMultiplayer.ProgressRules

/-!
# Which packets tell about shines

The handler of reports is the only one that sends a shine packet. All of its
packets carry the counter after the report. The one that announces a shine goes
to every record but the reporter's, and only when the shine is new.
-/

namespace BfMultiplayer.ShineAnnouncements

open Packets ServerState ServerHandlers SaveChunkRules EventLoopRules ClientLinks ProgressRules

/-- The shine packets among some effects, each with the peer it goes to; a
broadcast names no peer. -/
def shineSends (effects : List Effect) : List (Option ENetPeer × ToC_GoalItemInfo) :=
  effects.filterMap fun
    | .send peer (.goalItemInfo packet) _ => some (some peer, packet)
    | .broadcast (.goalItemInfo packet) _ => some (none, packet)
    | _ => none

/-- Those that announce a new shine. -/
def announcements (effects : List Effect) : List (Option ENetPeer × ToC_GoalItemInfo) :=
  (shineSends effects).filter fun sent => sent.2.isCollectNewShine

/-- The shine that a packet announces. -/
def shineOf (packet : ToC_GoalItemInfo) : Option GoalItemCollectData :=
  match packet.islandID, packet.shineID with
  | some islandID, some shineID => some ⟨islandID, shineID⟩
  | _, _ => none

/-- The shines that some effects announce. A packet object that is sent to
several clients counts once. -/
def announcedShines (effects : List Effect) : List GoalItemCollectData :=
  ((announcements effects).filterMap fun sent => shineOf sent.2).dedup

/-- Shine packets are sent in order. -/
theorem shineSends_append (first rest : List Effect) :
    shineSends (first ++ rest) = shineSends first ++ shineSends rest :=
  List.filterMap_append

/-- An event that reaches no handler sends none. -/
theorem shineSends_of_unhandled {effects : List Effect} (h : Unhandled effects) :
    shineSends effects = [] := by
  cases h <;> rfl

/-- Only the handler of reports sends shine packets. -/
theorem shineSends_of_other {s t : Server} {node : ClientNode} {packet : ServerBound} {now : ℕ}
    {effects : List Effect} (h : handlePacket s node packet now = some (t, effects))
    (hother : ∀ report, packet ≠ .goalItemInfo report) : shineSends effects = [] := by
  refine List.filterMap_eq_nil_iff.mpr fun effect heffect => ?_
  cases handlePacket_effects h effect heffect with
  | shine report peer sent reliable => exact absurd rfl (hother report)
  | @greeted packet sent hkind reliable =>
    cases sent with
    | goalItemInfo shine => cases hkind
    | _ => rfl
  | @relayed packet peer sent hkind reliable =>
    cases sent with
    | goalItemInfo shine => cases hkind
    | _ => rfl
  | upload packet => rfl
  | sceneEnter packet => rfl
  | saved packet data => rfl

/-- The records of everybody but the reporter, with the packet that announces
a shine to them. -/
def announcedTo (s : Server) (node : ClientNode) (report : ToS_GoalItemInfo) (count : ℤ) :
    List (Option ENetPeer × ToC_GoalItemInfo) :=
  (s.mClients.filter fun other => other.ptr != node.ptr).map fun other =>
    (some other.client.mPeer,
      ⟨node.client.mUid, count, true, some report.islandID, some report.shineID⟩)

/-- A shine packet for everybody but one client. -/
theorem shineSends_toAllExcept (s : Server) (except : ℕ) (packet : ToC_GoalItemInfo) :
    shineSends (s.sendPacketToAllExcept except (.goalItemInfo packet)) =
      (s.mClients.filter fun node => node.ptr != except).map fun node =>
        (some node.client.mPeer, packet) := by
  rw [shineSends, Server.sendPacketToAllExcept, List.filterMap_map, ← List.filterMap_eq_map]
  rfl

/-- A shine packet for one client. -/
theorem mem_shineSends_toClient {s : Server} {client : Client} {packet : ToC_GoalItemInfo}
    {sent : Option ENetPeer × ToC_GoalItemInfo}
    (h : sent ∈ shineSends (s.sendPacket client (.goalItemInfo packet))) : sent.2 = packet := by
  unfold Server.sendPacket at h
  split at h
  · rw [show shineSends [.send client.mPeer (.goalItemInfo packet) true] =
      [(some client.mPeer, packet)] from rfl] at h
    rw [List.mem_singleton.mp h]
  · cases h

/-- Every packet for a report carries the counter after it. -/
theorem report_counters (s : Server) (node : ClientNode) (report : ToS_GoalItemInfo) :
    let result := handleGoalItemInfo s node report
    ∀ sent ∈ shineSends result.2,
      sent.2.numCollectedGoalItems = result.1.mSaveData.numCollectedGoalItems := by
  intro result sent hsent
  simp only [result, handleGoalItemInfo, shineSends_append, List.mem_append] at hsent
  rcases hsent with (hothers | hreporter) | hsave
  · rw [shineSends_toAllExcept] at hothers
    obtain ⟨other, -, rfl⟩ := List.mem_map.mp hothers
    rfl
  · rw [mem_shineSends_toClient hreporter]
    rfl
  · cases hsave

/-- Announcements are made in order. -/
theorem announcements_append (first rest : List Effect) :
    announcements (first ++ rest) = announcements first ++ announcements rest := by
  rw [announcements, shineSends_append, List.filter_append]
  rfl

/-- A packet for everybody but one client announces to all of them or to none. -/
theorem announcements_toAllExcept (s : Server) (except : ℕ) (packet : ToC_GoalItemInfo) :
    announcements (s.sendPacketToAllExcept except (.goalItemInfo packet)) =
      if packet.isCollectNewShine then
        (s.mClients.filter fun node => node.ptr != except).map fun node =>
          (some node.client.mPeer, packet)
      else [] := by
  rw [announcements, shineSends_toAllExcept]
  split
  · rename_i hflag
    refine List.filter_eq_self.mpr fun sent hsent => ?_
    obtain ⟨node, -, rfl⟩ := List.mem_map.mp hsent
    exact hflag
  · rename_i hflag
    refine List.filter_eq_nil_iff.mpr fun sent hsent => ?_
    obtain ⟨node, -, rfl⟩ := List.mem_map.mp hsent
    exact hflag

/-- A packet without the flag announces nothing. -/
theorem announcements_toClient (s : Server) (client : Client) {packet : ToC_GoalItemInfo}
    (h : packet.isCollectNewShine = false) :
    announcements (s.sendPacket client (.goalItemInfo packet)) = [] := by
  refine List.filter_eq_nil_iff.mpr fun sent hsent => ?_
  rw [mem_shineSends_toClient hsent, h]
  exact Bool.false_ne_true

/-- A new shine is announced to everybody but the reporter, and a known one to
nobody. -/
theorem report_announcements (s : Server) (node : ClientNode) (report : ToS_GoalItemInfo) :
    announcements (handleGoalItemInfo s node report).2 =
      if ⟨report.islandID, report.shineID⟩ ∈ s.mSaveData.collectedGoalItems then []
      else announcedTo s node report (s.mSaveData.numCollectedGoalItems + 1) := by
  have hsearch := isGoalItemAlreadyCollected_iff s.mSaveData report.islandID report.shineID
  have hsave : ∀ data, announcements [.save data] = [] := fun _ => rfl
  simp only [handleGoalItemInfo, announcements_append, announcements_toAllExcept, hsave,
    announcements_toClient, List.append_nil]
  by_cases hknown : (⟨report.islandID, report.shineID⟩ : GoalItemCollectData) ∈
      s.mSaveData.collectedGoalItems
  · rw [if_pos hknown, hsearch.mpr hknown]
    rfl
  · have hnew : s.mSaveData.isGoalItemAlreadyCollected report.islandID report.shineID = false :=
      Bool.eq_false_iff.mpr fun h => hknown (hsearch.mp h)
    rw [if_neg hknown, hnew]
    rfl

/-- What a report announces, as shines: at most the one it tells. -/
theorem mem_announcedShines_report {s : Server} {node : ClientNode} {report : ToS_GoalItemInfo}
    {shine : GoalItemCollectData}
    (h : shine ∈ announcedShines (handleGoalItemInfo s node report).2) :
    shine = ⟨report.islandID, report.shineID⟩ ∧ shine ∉ s.mSaveData.collectedGoalItems := by
  rw [announcedShines, List.mem_dedup, report_announcements, List.mem_filterMap] at h
  obtain ⟨sent, hsent, hshine⟩ := h
  split at hsent
  · cases hsent
  · rename_i hnew
    obtain ⟨other, -, rfl⟩ := List.mem_map.mp hsent
    have hreported : (⟨report.islandID, report.shineID⟩ : GoalItemCollectData) = shine :=
      Option.some.inj hshine
    rw [← hreported]
    exact ⟨rfl, hnew⟩

end BfMultiplayer.ShineAnnouncements
