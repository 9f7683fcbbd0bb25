import KineticAtlas.NodeAccounting

/-!
Peer lookups in the node's event loop. Their responders are kept in a map keyed
by peer, so two lookups of one peer compete for a slot and the second insert drops
the first responder. The main result says that this is the only way to lose one:
in any run no lookup is lost exactly if every lookup that is stored found its slot
free.
-/
namespace KineticAtlas.PeerLookups

open Library.Texts Library.Runs Library.Ledgers KineticAtlas.Types NodeLoop NodeAccounting

variable {parsePeerId : Str → Option PeerId} {h h' : History} {i : LoopInput Unit}
  {is : List (LoopInput Unit)}

/-- Every LookupPeer taken is still waiting in the map of dials or was answered. -/
def NoLookupLost (h : History) : Prop :=
  ∀ n peerIdStr resp answers, h.taken[n]? = some (.lookupPeer peerIdStr resp, answers) →
    (∃ p, h.state.pendingDials p = some n) ∨ ∃ ip cause, (.peer n ip, cause) ∈ h.replies

/-- A lookup about to be stored finds no other lookup waiting for its peer. -/
def SlotFree (parsePeerId : Str → Option PeerId) (h : History) : LoopInput Unit → Prop
  | .recv (some (.lookupPeer peerIdStr _)) answers =>
    ∀ p, parsePeerId peerIdStr = some p → answers.dialOk = true → h.state.pendingDials p = none
  | _ => True

theorem answered_iff_reply (n : ℕ) :
    (dialLedger parsePeerId h).Answered n ↔ ∃ ip cause, (.peer n ip, cause) ∈ h.replies := by
  constructor
  · intro ha
    obtain ⟨⟨m, ip, cause⟩, hmem, rfl⟩ := List.mem_map.mp ha
    obtain ⟨reply, hreply, hval⟩ := (mem_answersBy_iff peerReply h.replies _ _ _).mp hmem
    cases reply with
    | peer k ip' =>
      obtain ⟨rfl, rfl⟩ : k = m ∧ ip' = ip := by simpa [peerReply] using hval
      exact ⟨ip', cause, hreply⟩
    | record k value => simp [peerReply] at hval
    | proxy k response => simp [peerReply] at hval
  · rintro ⟨ip, cause, hmem⟩
    have hans := (mem_answersBy_iff peerReply h.replies n ip cause).mpr ⟨_, hmem, rfl⟩
    exact List.mem_map_of_mem (f := Prod.fst) hans

theorem noLookupLost_iff_full (hs : (dialLedger parsePeerId h).Sound DialCause) :
    NoLookupLost h ↔ (dialLedger parsePeerId h).Full := by
  constructor
  · intro hlost p n hstored
    obtain ⟨cmd, answers, hget, hkey⟩ := (mem_storedBy_iff _ _ _ _).mp hstored
    cases cmd with
    | getRecord domain resp => simp [dialKey] at hkey
    | sendProxyRequest peerId request resp => simp [dialKey] at hkey
    | lookupPeer peerIdStr resp =>
      rcases hlost n peerIdStr resp answers hget with ⟨p', hp'⟩ | hreply
      · obtain rfl := hs.key_unique (hs.pending_stored p' n hp') hstored
        exact Or.inl hp'
      · exact Or.inr ((answered_iff_reply n).mpr hreply)
  · intro hfull n peerIdStr resp answers hget
    cases hkey : dialKey parsePeerId (.lookupPeer peerIdStr resp) answers with
    | some p =>
      have hstored : (p, n) ∈ (dialLedger parsePeerId h).stored :=
        (mem_storedBy_iff _ _ _ _).mpr ⟨_, _, hget, hkey⟩
      exact (hfull p n hstored).imp (fun hp => ⟨p, hp⟩) (answered_iff_reply n).mp
    | none =>
      have hrefused : dialRefused parsePeerId (.lookupPeer peerIdStr resp) answers = some () := by
        cases hd : answers.dialOk <;> cases hp : parsePeerId peerIdStr <;>
          simp [dialKey, dialRefused, hd, hp] at hkey ⊢
      have hmem : n ∈ (dialLedger parsePeerId h).refused :=
        List.mem_map_of_mem (f := Prod.snd)
          ((mem_storedBy_iff (dialRefused parsePeerId) h.taken () n).mpr ⟨_, _, hget, hrefused⟩)
      exact Or.inr ((answered_iff_reply n).mp (hs.refused_answered n hmem))

/-- A turn keeps the books of dials full exactly if it overwrites no lookup. -/
theorem dialMove_full_iff (hs : (dialLedger parsePeerId h).Sound DialCause) :
    (dialMove parsePeerId h i).Full ↔
      (dialLedger parsePeerId h).Full ∧ SlotFree parsePeerId h i := by
  unfold dialMove
  split
  · rename_i peerIdStr resp answers
    split
    · rename_i p hkey
      obtain ⟨hok, hparse⟩ : answers.dialOk = true ∧ parsePeerId peerIdStr = some p := by
        simpa [dialKey] using hkey
      rw [hs.full_store_iff (dialLedger_fresh parsePeerId h)]
      simp [SlotFree, hparse, hok, dialLedger]
    · rename_i hkey
      have hfree : SlotFree parsePeerId h (.recv (some (.lookupPeer peerIdStr resp)) answers) := by
        intro p hparse hok
        simp [dialKey, hparse, hok] at hkey
      rw [hs.full_refuse_iff (dialLedger_fresh parsePeerId h)]
      exact ⟨fun hfull => ⟨hfull, hfree⟩, And.left⟩
  · rw [hs.full_settle_iff]
    simp [SlotFree]
  · rw [hs.full_settle_iff]
    simp [SlotFree]
  · rename_i hlookup _ _
    refine ⟨fun hfull => ⟨hfull, ?_⟩, And.left⟩
    unfold SlotFree
    split
    · exact absurd rfl (hlookup _ _ _)
    · trivial

/-- No lookup has been lost in a run exactly if each of its turns found the slot of
the lookup it stored, if any, free. -/
theorem no_lookup_lost_iff (hrun : (machine parsePeerId).Run is h) :
    NoLookupLost h ↔ (machine parsePeerId).Throughout (SlotFree parsePeerId) is := by
  rw [noLookupLost_iff_full (dialLedger_sound hrun)]
  induction hrun with
  | nil => exact ⟨fun _ => Machine.throughout_nil _ _, fun _ => Ledger.full_empty⟩
  | @snoc is h h' i hrun hstep ih =>
    rw [(ledgers_step hstep).2.2, dialMove_full_iff (dialLedger_sound hrun), ih]
    exact (Machine.throughout_snoc_iff hrun).symm

/-- A lookup of the peer `p` whose dial libp2p accepts. -/
def lookupOfP : LoopInput Unit := .recv (some (.lookupPeer "p" ())) ⟨0, true, 0⟩

theorem no_lookup_lost_iff_single :
    ∃ h, (machine fun _ => some ⟨[]⟩).Run [lookupOfP] h ∧
      (NoLookupLost h ↔
        (machine fun _ => some ⟨[]⟩).Throughout (SlotFree fun _ => some ⟨[]⟩) [lookupOfP]) :=
  ⟨_, .snoc .nil rfl, no_lookup_lost_iff (.snoc .nil rfl)⟩

/-- Two lookups of one peer in a row: the first is neither waiting nor answered. -/
theorem second_lookup_drops_first :
    ∃ h, (machine fun _ => some ⟨[]⟩).Run [lookupOfP, lookupOfP] h ∧ ¬ NoLookupLost h := by
  refine ⟨_, .snoc (.snoc .nil rfl) rfl, fun hlost => ?_⟩
  rcases hlost 0 "p" () ⟨0, true, 0⟩ rfl with ⟨p, hp⟩ | ⟨ip, cause, hreply⟩
  · by_cases hpeer : p = ⟨[]⟩
    · subst p
      revert hp
      decide
    · simp [inputWithResponder, withResponder, lookupOfP, handleCommand, machine, hpeer] at hp
  · simp [handleCommand, machine, inputWithResponder, withResponder, lookupOfP] at hreply

end KineticAtlas.PeerLookups
