import Mathlib.Data.List.Nodup
import Fectp.Execution
import Fectp.SessionFrames

namespace Fectp

/-!
# Nonces

A session numbers the frames it seals, and a frame is encrypted with its number
as the nonce, under the key of the number's generation.  Whatever is called on
the session, in whatever order and with whatever outcome, the frames that are
sealed use one number after the other.
-/

/-- A call that seals a frame. -/
inductive SealCall where
  | data (payload : Bytes) (flags : UInt8) (outLen : Nat)
  | reliable (payload : Bytes) (messageId : MessageId) (flags : UInt8)
      (outLen : Nat)
  | fragment (payload : Bytes) (messageId : MessageId)
      (descriptor : Fragment) (flags : UInt8) (outLen : Nat)
  | ack (ack : Ack) (outLen : Nat)
  | pathChallenge (token : Bytes) (outLen : Nat)
  | pathProbe (token : Bytes) (frameLen outLen : Nat)
  | pathResponse (token : Bytes) (outLen : Nat)

/-- Anything that is called on a session. -/
inductive SessionCall where
  | seals (call : SealCall)
  | setPadding (enabled : Bool)
  | opens (frame : Bytes)

namespace Session

def sealCall (aead : Aead) (session : Session) :
    SealCall → Except CoreError Bytes × Session
  | .data payload flags outLen =>
      session.sealData aead payload flags outLen
  | .reliable payload messageId flags outLen =>
      session.sealReliable aead payload messageId flags outLen
  | .fragment payload messageId descriptor flags outLen =>
      session.sealFragment aead payload messageId descriptor flags outLen
  | .ack ack outLen =>
      session.sealAck aead ack outLen
  | .pathChallenge token outLen =>
      session.sealPathChallenge aead token outLen
  | .pathProbe token frameLen outLen =>
      session.sealPathProbe aead token frameLen outLen
  | .pathResponse token outLen =>
      session.sealPathResponse aead token outLen

variable {aead : Aead} {session : Session}

/-- A call is refused at once, or builds a frame. -/
theorem sealCall_cases (aead : Aead) (session : Session) (call : SealCall) :
    (∃ error, session.sealCall aead call = (.error error, session)) ∨ ∃ parts padding outLen,
        session.sealCall aead call = session.sealFramePadded aead parts padding outLen := by
  cases call with
  | ack ack outLen =>
    unfold sealCall sealAck
    dsimp only
    split
    · exact Or.inl ⟨_, rfl⟩
    · exact Or.inr ⟨_, _, _, rfl⟩
  | pathProbe token frameLen outLen =>
    unfold sealCall sealPathProbe
    dsimp only
    split
    · exact Or.inl ⟨_, rfl⟩
    · exact Or.inr ⟨_, _, _, rfl⟩
  | _ => exact Or.inr ⟨_, _, _, rfl⟩

/-- A call that fails takes no number. -/
theorem sealCall_error
    {call : SealCall} {error : CoreError} (failed : (session.sealCall aead call).1 = .error error) :
    (session.sealCall aead call).2.sendSeq = session.sendSeq := by
  rcases session.sealCall_cases aead call with
    ⟨_, refused⟩ | ⟨parts, padding, outLen, builds⟩
  · rw [refused]
  · rw [builds] at failed ⊢
    exact sealFramePadded_error (Prod.ext failed rfl)

end Session

/-- A frame that was sealed, under which key of the chain and which nonce. -/
structure SealedFrame where
  frame : Bytes
  generation : Nat
  nonce : Nat

/-- A session, and the frames it has sealed so far. -/
structure Sealer where
  session : Session
  frames : List SealedFrame

namespace Sealer

variable (aead : Aead)

/-- A frame that is sealed is noted with the generation and number in use. -/
def next (sealer : Sealer) : SessionCall → Sealer
  | .seals call =>
      match sealer.session.sealCall aead call with
      | (.error _, session) =>
          { sealer with session := session }
      | (.ok frame, session) =>
          { session := session
            frames :=
              sealer.frames ++
                [⟨frame, session.sendGeneration, sealer.session.sendSeq⟩] }
  | .setPadding enabled =>
      { sealer with session := sealer.session.setPadding enabled }
  | .opens frame =>
      { sealer with session := (sealer.session.openFrame aead frame).2.2 }

variable {aead}

/-- The frame has this number, and was encrypted with it as the nonce. -/
structure Numbered
    (aead : Aead)
    (key : Bytes)
    (number : Nat)
    (item : SealedFrame) :
    Prop where
  nonce : item.nonce = number
  generation : item.generation = generationOf number
  inRange : number < maxValue 64
  encrypted : ∃ (header : Header) (plaintext : Bytes),
      header.sequence = number ∧
        item.frame =
          header.bytes ++
            aead.encrypt (chain aead key (generationOf number)) number
              header.bytes plaintext

/-- The frames sealed are numbered from the first one on. -/
structure Counts (aead : Aead) (key : Bytes) (sealer : Sealer) :
    Prop where
  sends : Session.Sends aead key sealer.session
  count : sealer.session.sendSeq = sealer.frames.length
  numbered : ∀ {number item},
      sealer.frames[number]? = some item →
      Numbered aead key number item

theorem Counts.next
    {key : Bytes} {sealer : Sealer} (counts : sealer.Counts aead key) (call : SessionCall) :
    (sealer.next aead call).Counts aead key := by
  obtain ⟨sends, count, numbered⟩ := counts
  cases call with
  | setPadding enabled => exact ⟨⟨sends.keyed, sends.notAhead, sends.bounded⟩, count, numbered⟩
  | opens frame =>
    obtain ⟨isSend, isSeq, isGeneration⟩ := sealer.session.openFrame_sending aead frame
    refine ⟨⟨?_, ?_, ?_⟩, isSeq.trans count, numbered⟩
    · unfold Sealer.next
      rw [isSend, isGeneration]
      exact sends.keyed
    · unfold Sealer.next
      rw [isGeneration, isSeq]
      exact sends.notAhead
    · unfold Sealer.next
      rw [isSeq]
      exact sends.bounded
  | seals call =>
    unfold Sealer.next
    dsimp only
    rcases sealer.session.sealCall_cases aead call with
      ⟨error, refused⟩ | ⟨parts, padding, outLen, builds⟩
    · rw [refused]
      exact ⟨sends, count, numbered⟩
    have sealing := sends.sealFramePadded parts padding outLen
    rw [builds]
    rcases isSealed :
        sealer.session.sealFramePadded aead parts padding outLen with
      ⟨outcome, after⟩
    rw [isSealed] at sealing
    obtain ⟨sendsAfter, _, sealed⟩ := sealing
    cases outcome with
    | error error =>
      refine ⟨sendsAfter, ?_, numbered⟩
      exact (Session.sealFramePadded_error isSealed).trans count
    | ok frame =>
      obtain ⟨inRange, isNext, isCurrent, plaintextLen, _, isFrame⟩ := sealed rfl
      refine ⟨sendsAfter, ?_, ?_⟩
      · rw [List.length_append, ← count]
        exact isNext
      · intro number item isItem
        rcases Nat.lt_trichotomy number sealer.frames.length with
          isOld | rfl | tooFar
        · rw [List.getElem?_append_left isOld] at isItem
          exact numbered isItem
        · rw [List.getElem?_concat_length] at isItem
          cases isItem
          rw [← count]
          exact ⟨rfl, isCurrent, inRange, parts.header sealer.session.sessionId padding.isPadded
              sealer.session.sendSeq, _, rfl, isFrame⟩
        · rw [List.getElem?_eq_none] at isItem
          · cases isItem
          · rw [List.length_append]
            exact tooFar

/-- Without a key nothing is ever sealed. -/
structure Unkeyed (sealer : Sealer) : Prop where
  key : sealer.session.send.key = none
  frames : sealer.frames = []

theorem Unkeyed.next {sealer : Sealer} (unkeyed : sealer.Unkeyed) (call : SessionCall) :
    (sealer.next aead call).Unkeyed := by
  obtain ⟨isKey, frames⟩ := unkeyed
  cases call with
  | setPadding enabled => exact ⟨isKey, frames⟩
  | opens frame =>
    obtain ⟨isSend, _⟩ := sealer.session.openFrame_sending aead frame
    refine ⟨?_, frames⟩
    unfold Sealer.next
    rw [isSend]
    exact isKey
  | seals call =>
    unfold Sealer.next
    dsimp only
    rcases sealer.session.sealCall_cases aead call with
      ⟨error, refused⟩ | ⟨parts, padding, outLen, builds⟩
    · rw [refused]
      exact ⟨isKey, frames⟩
    obtain ⟨error, fails⟩ :=
      Session.sealFramePadded_unkeyed isKey aead parts padding outLen
    rw [builds, fails]
    exact ⟨isKey, frames⟩

/--
The frames a session seals take the numbers from zero on, each once, under the
key that has been replaced as often as the number asks for; the last number is
left to the replacing of keys, and a call that fails takes none.
-/
theorem nonces_in_order
    (aead : Aead)
    (send recv : CipherState)
    (sessionId : BitVec 32)
    (peerCaps : Capabilities)
    (remoteStatic resumptionKey : Bytes)
    (calls : List SessionCall) :
    let session :=
      Session.new send recv sessionId peerCaps remoteStatic resumptionKey
    let final := Execution.run (Sealer.next aead) ⟨session, []⟩ calls
    (∀ {number item},
        final.frames[number]? = some item →
        ∃ key, send.key = some key ∧ Numbered aead key number item) ∧
      (final.frames.map fun item => (item.generation, item.nonce)).Nodup ∧
      ∀ {call error},
        (final.session.sealCall aead call).1 = .error error →
        (final.session.sealCall aead call).2.sendSeq =
          final.session.sendSeq := by
  intro session final
  have inOrder : ∀ {number item},
        final.frames[number]? = some item →
        ∃ key, send.key = some key ∧ Numbered aead key number item := by
    intro number item isItem
    cases isKey : send.key with
    | none =>
        have unkeyed : final.Unkeyed :=
          Execution.invariant_of_step Unkeyed.next ⟨isKey, rfl⟩
        rw [unkeyed.frames] at isItem
        cases isItem
    | some key =>
        have counts : final.Counts aead key :=
          Execution.invariant_of_step Counts.next
            ⟨⟨isKey, Nat.zero_le _, Nat.zero_le _⟩, rfl, nofun⟩
        exact ⟨key, rfl, counts.numbered isItem⟩
  refine ⟨inOrder, ?_, Session.sealCall_error⟩
  have numbers :
      (final.frames.map (·.nonce)) = List.range final.frames.length := by
    refine List.ext_getElem (by simp) fun number inFrames _ => ?_
    rw [List.length_map] at inFrames
    obtain ⟨_, _, numbered⟩ := inOrder (List.getElem?_eq_getElem inFrames)
    rw [List.getElem_map, List.getElem_range]
    exact numbered.nonce
  refine List.Nodup.of_map Prod.snd ?_
  rw [List.map_map]
  exact numbers ▸ List.nodup_range

end Sealer

end Fectp
