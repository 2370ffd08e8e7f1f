import Voyager.Kermit.ReceiverRuns

/-!
# Which packets a receiver accepts

The receiver takes every packet whose turn it is by its number, and looks at hardly
anything else: it wants an `S` before an `F`, and a `Z` before a `B`. `InOrder` is what it
does not look at. As long as the packets that come are in order, the receiver is where the
packets it has accepted have brought it (`Follows`).
-/

namespace Voyager

namespace Kermit

/-- What happens to a receiver that was started. -/
inductive ReceiverEvent
  | packet (p : Packet)
  | timeout
  | cancel
  | stop
  deriving DecidableEq, Repr

namespace Receiver

def step (timeoutMs : ℕ) (r : Receiver) : ReceiverEvent → Receiver × List ReceiverEffect
  | .packet p =>
      match r.lingering with
      | some (_, prev) => (r, r.handleLinger prev p)
      | none => r.handle timeoutMs p
  | .timeout => if r.timer then r.timeout else (r, [])
  | .cancel => r.cancel
  | .stop => (r.stop, [])

/-- The data of a packet with which the receiver gets to its `switch`. -/
def takes (r : Receiver) (p : Packet) : Option (List Byte) :=
  if r.done ∨ ¬ r.waiting then none
  else (r.check p).filter fun _ => p.type ≠ PacketType.E ∧ p.seq.toNat = r.expected

/-- The type and the data of a packet that the receiver acknowledges as the next one. -/
def accepted (r : Receiver) (p : Packet) : List (Byte × List Byte) :=
  match r.takes p with
  | none => []
  | some d =>
      if p.type = PacketType.F ∧ r.neg = none then []
      else if p.type = PacketType.D ∧ decodeWith r.neg d = none then []
      else if p.type ∈ [PacketType.S, PacketType.F, PacketType.A, PacketType.D, PacketType.Z,
          PacketType.B] then [(p.type, d)]
      else []

/-- A packet of this type may come now: the parameters first and once, then one name, then the
attributes, as the third packet if at all, and data and the end of the file between the
name and the first end of a file. -/
structure InOrder (r : Receiver) (type : Byte) : Prop where
  init : type = PacketType.S → r.neg = none
  file : type = PacketType.F → r.neg ≠ none → r.fileName = []
  attr : type = PacketType.A →
    r.fileName ≠ [] ∧ r.gotEof = false ∧ r.expected = 2 ∧ r.chunks = []
  data : type = PacketType.D ∨ type = PacketType.Z → r.fileName ≠ [] ∧ r.gotEof = false

end Receiver

/-- A receiver, the packets it has accepted so far and all that it has done. -/
structure Reception where
  receiver : Receiver
  accepted : List (Byte × List Byte)
  effects : List ReceiverEffect

/-- The packets `S`, `F`, maybe `A`, and `D` as often as it takes, with these data. -/
def filePackets (s f : List Byte) (a : Option (List Byte)) (ds : List (List Byte)) :
    List (Byte × List Byte) :=
  [(PacketType.S, s), (PacketType.F, f)] ++ a.toList.map (PacketType.A, ·) ++
    ds.map (PacketType.D, ·)

/-- The packets are those of a transfer of one file, with these bytes. -/
def WellOrdered (packets : List (Byte × List Byte)) (bytes : List Byte) : Prop :=
  ∃ s f a ds z b,
    packets = filePackets s f a ds ++ [(PacketType.Z, z), (PacketType.B, b)] ∧
      bytes = (ds.map (decode (negotiate s).quote)).flatten

namespace Reception

/-- The receiver is started. -/
def start : Reception where
  receiver := createReceiver.start.1
  accepted := []
  effects := createReceiver.start.2

def step (timeoutMs : ℕ) (x : Reception) (e : ReceiverEvent) : Option Reception :=
  let a := x.receiver.step timeoutMs e
  let accepted :=
    match e with
    | .packet p => x.receiver.accepted p
    | _ => []
  some { receiver := a.1, accepted := x.accepted ++ accepted, effects := x.effects ++ a.2 }

/-- Nothing was thrown, and what was reported complete was one file in order. -/
structure Good (x : Reception) : Prop where
  throws : .throws ∉ x.effects
  complete : ∀ data msg name, .complete true data msg name ∈ x.effects →
    ∃ bytes, data = some bytes ∧ WellOrdered x.accepted bytes

/-- A packet whose turn it is by its number is in order. -/
def InOrder (x : Reception) : ReceiverEvent → Prop
  | .packet p => (x.receiver.takes p).isSome → x.receiver.InOrder p.type
  | _ => True

end Reception

/-! ## Where the receiver is -/

/-- What the packets that it has accepted have made of the receiver. -/
inductive Receiver.Follows (r : Receiver) (packets : List (Byte × List Byte)) : Prop
  | start (hpackets : packets = []) (hneg : r.neg = none) (hname : r.fileName = [])
      (hchunks : r.chunks = []) (heof : r.gotEof = false)
  | inited (s : List Byte) (hpackets : packets = [(PacketType.S, s)])
      (hneg : r.neg = some (negotiate s)) (hname : r.fileName = []) (hchunks : r.chunks = [])
      (heof : r.gotEof = false)
  | file (s f : List Byte) (a : Option (List Byte)) (ds : List (List Byte))
      (hpackets : packets = filePackets s f a ds)
      (hneg : r.neg = some (negotiate s)) (hname : r.fileName ≠ [])
      (hchunks : r.chunks = ds.map (decode (negotiate s).quote)) (heof : r.gotEof = false)
      (hattr : r.expected = 2 → r.chunks = [] → a = none)
  | eof (s f : List Byte) (a : Option (List Byte)) (ds : List (List Byte)) (z : List Byte)
      (hpackets : packets = filePackets s f a ds ++ [(PacketType.Z, z)])
      (hneg : r.neg = some (negotiate s)) (hname : r.fileName ≠ [])
      (hchunks : r.chunks = ds.map (decode (negotiate s).quote)) (heof : r.gotEof = true)

structure Reception.Inv (x : Reception) : Prop where
  throws : .throws ∉ x.effects
  complete : ∀ data msg name, .complete true data msg name ∈ x.effects →
    x.receiver.done = true ∧ ∃ bytes, data = some bytes ∧ WellOrdered x.accepted bytes
  follows : x.receiver.done = false →
    x.receiver.lingering = none ∧ x.receiver.Follows x.accepted

variable {timeoutMs : ℕ} {r : Receiver} {p : Packet} {d : List Byte}
  {packets : List (Byte × List Byte)} {es es' : List ReceiverEffect} {x : Reception}

/-! ## Effects -/

/-- Nothing is thrown, and nothing is reported as complete. -/
def Plain (es : List ReceiverEffect) : Prop :=
  .throws ∉ es ∧ ∀ data msg name, .complete true data msg name ∉ es

theorem Plain.append (h : Plain es) (h' : Plain es') : Plain (es ++ es') := by
  refine ⟨fun he => ?_, fun data msg name he => ?_⟩
  · rcases List.mem_append.mp he with he | he
    · exact h.1 he
    · exact h'.1 he
  · rcases List.mem_append.mp he with he | he
    · exact h.2 data msg name he
    · exact h'.2 data msg name he

theorem plain_nil : Plain [] := ⟨List.not_mem_nil, fun _ _ _ => List.not_mem_nil⟩

theorem plain_writes (bytes : List (List Byte)) : Plain (bytes.map .write) := by
  refine ⟨fun he => ?_, fun data msg name he => ?_⟩
  · obtain ⟨b, -, hb⟩ := List.mem_map.mp he
    cases hb
  · obtain ⟨b, -, hb⟩ := List.mem_map.mp he
    cases hb

theorem plain_write (bytes : List Byte) : Plain [.write bytes] := plain_writes [bytes]

theorem Receiver.plain_fail (msg : JsString) (notifyPeer : Bool) :
    Plain (r.fail msg notifyPeer).2 := by
  have hfailed : Plain [.complete false none (some msg) none] := by simp [Plain]
  rw [Receiver.fail]
  split
  · exact plain_nil
  · split
    · exact (plain_write _).append hfailed
    · exact hfailed

theorem Receiver.done_fail (msg : JsString) (notifyPeer : Bool) :
    (r.fail msg notifyPeer).1.done = true := by
  rw [Receiver.fail]
  split
  · assumption
  · rfl

/-! ## Packets -/

/-- The bytes of a packet are read as that packet. -/
theorem Receiver.deliver_buildPacket {type : Byte} {data : List Byte} {ckType : ℕ}
    (h : Sendable type data ckType) (hlistening : r.listening = true ∧ ¬ r.done)
    (hlingering : r.lingering = none) (hunread : r.unread = []) (seq : ℕ) :
    let a := { r with parser := createParser }.step timeoutMs
      (.packet (packetFrame seq type data ckType))
    r.deliver timeoutMs (buildPacket seq type data ckType) = ({ a.1 with unread := [] }, a.2) := by
  have hpackets : r.unread ++ (r.parser.feed (buildPacket seq type data ckType)).2 =
      [packetFrame seq type data ckType] := by
    rw [hunread, Parser.feed_buildPacket _ h, List.nil_append]
  rw [Receiver.step, Receiver.deliver]
  split
  · next hsome => cases hlingering.symm.trans hsome
  · dsimp only
    rw [if_pos hlistening, hpackets, Parser.feed_buildPacket _ h]
    split
    · next hsome => cases hlingering.symm.trans hsome
    · rw [Receiver.handleAll]
      dsimp only
      split
      · rfl
      · rw [Receiver.handleAll, List.append_nil]

theorem Receiver.handle_of_takes (h : r.takes p = some d) :
    r.handle timeoutMs p = { r with tries := 0 }.accept timeoutMs p.seq.toNat p.type d := by
  rw [Receiver.takes] at h
  split at h
  · cases h
  · next hgo =>
      rw [Option.filter_eq_some_iff, decide_eq_true_iff] at h
      obtain ⟨hcheck, htype, hseq⟩ := h
      rw [Receiver.handle, if_neg hgo, Receiver.onPacket, hcheck]
      dsimp only
      rw [Receiver.react, if_neg htype, if_neg fun hdup => hdup.2.2 hseq,
        if_neg (not_not_intro hseq)]

/-- A packet whose turn it is not changes nothing, or ends the transfer. -/
theorem Receiver.handle_of_not_takes (timeoutMs : ℕ) (h : r.takes p = none) :
    Plain (r.handle timeoutMs p).2 ∧
      ((r.handle timeoutMs p).1 = r ∨ (r.handle timeoutMs p).1.done = true) := by
  rw [Receiver.handle]
  split
  · exact ⟨plain_nil, .inl rfl⟩
  · next hgo =>
      rw [Receiver.takes, if_neg hgo] at h
      rw [Receiver.onPacket]
      split
      · next d hcheck =>
          rw [hcheck, Option.filter_some] at h
          rw [Receiver.react]
          split
          · exact ⟨Receiver.plain_fail _ _, .inr (Receiver.done_fail _ _)⟩
          · next htype =>
              split
              · exact ⟨plain_writes _, .inl rfl⟩
              · split
                · exact ⟨plain_write _, .inl rfl⟩
                · next hseq =>
                    rw [if_pos (decide_eq_true ⟨htype, not_not.mp hseq⟩)] at h
                    cases h
      · exact ⟨plain_write _, .inl rfl⟩

theorem Receiver.accepted_of_takes (h : r.takes p = some d)
    (hfile : p.type = PacketType.F → r.neg ≠ none)
    (hdata : p.type = PacketType.D → decodeWith r.neg d ≠ none)
    (htype : p.type ∈ [PacketType.S, PacketType.F, PacketType.A, PacketType.D, PacketType.Z,
      PacketType.B]) : r.accepted p = [(p.type, d)] := by
  rw [Receiver.accepted, h]
  dsimp only
  rw [if_neg fun hcon => hfile hcon.1 hcon.2, if_neg fun hcon => hdata hcon.1 hcon.2, if_pos htype]

/-! ## One packet that is accepted -/

/-- Where the receiver is after a packet, and what it did: nothing is thrown, and when the
transfer is reported complete, it was in order. -/
structure Receiver.Lands (packets : List (Byte × List Byte))
    (a : Receiver × List ReceiverEffect) : Prop where
  throws : .throws ∉ a.2
  complete : ∀ data msg name, .complete true data msg name ∈ a.2 →
    a.1.done = true ∧ ∃ bytes, data = some bytes ∧ WellOrdered packets bytes
  follows : a.1.done = false → a.1.lingering = none ∧ a.1.Follows packets

theorem Receiver.lands_of_plain {a : Receiver × List ReceiverEffect} (hplain : Plain a.2)
    (hfollows : a.1.done = false → a.1.lingering = none ∧ a.1.Follows packets) :
    Receiver.Lands packets a :=
  ⟨hplain.1, fun data msg name he => absurd he (hplain.2 data msg name), hfollows⟩

theorem Receiver.lands_fail (msg : JsString) (notifyPeer : Bool) :
    Receiver.Lands packets (r.fail msg notifyPeer) :=
  Receiver.lands_of_plain (Receiver.plain_fail msg notifyPeer) fun hdone => by
    rw [Receiver.done_fail] at hdone
    cases hdone

theorem Receiver.Lands.cons {a : Receiver × List ReceiverEffect} (h : Receiver.Lands packets a)
    {e : ReceiverEffect} (he : Plain [e]) : Receiver.Lands packets (a.1, e :: a.2) := by
  refine ⟨fun hin => ?_, fun data msg name hin => ?_, h.follows⟩
  · rcases List.mem_cons.mp hin with hin | hin
    · exact he.1 (by rw [hin]; exact List.mem_singleton_self e)
    · exact h.throws hin
  · rcases List.mem_cons.mp hin with hin | hin
    · exact absurd (by rw [hin]; exact List.mem_singleton_self e) (he.2 data msg name)
    · exact h.complete data msg name hin

theorem plain_fileStart (name : JsString) (size : ℤ) : Plain [.fileStart name size] := by
  simp [Plain]

theorem plain_progress (received : ℕ) (size : ℤ) : Plain [.progress received size] := by
  simp [Plain]

/-- The number matters only where the attributes may come. -/
theorem Receiver.Follows.congr {t : Receiver} (h : r.Follows packets) (hneg : t.neg = r.neg)
    (hname : t.fileName = r.fileName) (hchunks : t.chunks = r.chunks) (heof : t.gotEof = r.gotEof)
    (hexpected : t.expected = r.expected) : t.Follows packets := by
  cases h with
  | start hp hn hf hc he =>
      exact .start hp (hneg.trans hn) (hname.trans hf) (hchunks.trans hc) (heof.trans he)
  | inited s hp hn hf hc he =>
      exact .inited s hp (hneg.trans hn) (hname.trans hf) (hchunks.trans hc) (heof.trans he)
  | file s f a ds hp hn hf hc he hattr =>
      refine .file s f a ds hp (hneg.trans hn) ?_ (hchunks.trans hc) (heof.trans he) ?_
      · rw [hname]
        exact hf
      · rw [hexpected, hchunks]
        exact hattr
  | eof s f a ds z hp hn hf hc he =>
      refine .eof s f a ds z hp (hneg.trans hn) ?_ (hchunks.trans hc) (heof.trans he)
      rw [hname]
      exact hf

/-- A receiver that has a name but not the end of its file. -/
theorem Receiver.Follows.of_open (h : r.Follows packets) (hname : r.fileName ≠ [])
    (hopen : r.gotEof = false) :
    ∃ s f a ds, packets = filePackets s f a ds ∧ r.neg = some (negotiate s) ∧
      r.chunks = ds.map (decode (negotiate s).quote) ∧
      (r.expected = 2 → r.chunks = [] → a = none) := by
  cases h with
  | start _ _ hnone => exact absurd hnone hname
  | inited s _ _ hnone => exact absurd hnone hname
  | file s f a ds hpackets hneg _ hchunks _ hattr =>
      exact ⟨s, f, a, ds, hpackets, hneg, hchunks, hattr⟩
  | eof s f a ds z _ _ _ _ heof => cases hopen.symm.trans heof

/-- After the acknowledgement the receiver waits where the packets have brought it. -/
theorem Receiver.lands_proceed (hlingering : r.lingering = none) (seq : ℕ) (payload : List Byte)
    (ck : ℕ) (hfollows : Receiver.Follows { r with expected := (r.expected + 1) &&& 63 } packets) :
    Receiver.Lands packets (r.proceed seq payload ck) :=
  Receiver.lands_of_plain (plain_write _) fun _ =>
    ⟨hlingering, hfollows.congr rfl rfl rfl rfl rfl⟩

theorem Receiver.Follows.lands_S (h : r.Follows packets) (hlingering : r.lingering = none)
    (hneg : r.neg = none) (seq : ℕ) (d : List Byte) :
    Receiver.Lands (packets ++ [(PacketType.S, d)]) (r.accept timeoutMs seq PacketType.S d) := by
  rw [Receiver.accept_S]
  cases h with
  | start hpackets _ hname hchunks heof =>
      refine Receiver.lands_proceed (by exact hlingering) _ _ _ ?_
      exact .inited d (by rw [hpackets, List.nil_append]) rfl hname hchunks heof
  | inited s _ hneg' => cases hneg.symm.trans hneg'
  | file s f a ds _ hneg' => cases hneg.symm.trans hneg'
  | eof s f a ds z _ hneg' => cases hneg.symm.trans hneg'

/-- The name of a file is never empty. -/
theorem Receiver.Follows.lands_F (h : r.Follows packets) (hlingering : r.lingering = none)
    {neg : Neg} (hneg : r.neg = some neg) (hname : r.fileName = []) (seq : ℕ) (d : List Byte) :
    Receiver.Lands (packets ++ [(PacketType.F, d)]) (r.accept timeoutMs seq PacketType.F d) := by
  have hnamed : ∀ name : JsString, (if name = [] then lit "file" else name) ≠ [] := by
    intro name
    split
    · decide
    · assumption
  rw [Receiver.accept, if_neg (by decide), if_pos rfl]
  split
  · next hnone => cases hneg.symm.trans hnone
  · cases h with
    | start _ hneg' => cases hneg.symm.trans hneg'
    | inited s hpackets hneg' _ hchunks heof =>
        refine (Receiver.lands_proceed (by exact hlingering) _ _ _ ?_).cons (plain_fileStart _ _)
        exact .file s d none [] (by rw [hpackets]; rfl) hneg' (hnamed _) hchunks heof
          fun _ _ => rfl
    | file s f a ds _ _ hname' => exact absurd hname hname'
    | eof s f a ds z _ _ hname' => exact absurd hname hname'

/-- The attributes come as the third packet only. -/
theorem Receiver.Follows.lands_A (h : r.Follows packets) (hlingering : r.lingering = none)
    (horder : r.fileName ≠ [] ∧ r.gotEof = false ∧ r.expected = 2 ∧ r.chunks = []) (seq : ℕ)
    (d : List Byte) :
    Receiver.Lands (packets ++ [(PacketType.A, d)]) (r.accept timeoutMs seq PacketType.A d) := by
  obtain ⟨hnamed, hopen, hthird, hnone⟩ := horder
  obtain ⟨s, f, a, ds, hpackets, hneg, hchunks, hattr⟩ := h.of_open hnamed hopen
  have ha : a = none := hattr hthird hnone
  have hds : ds = [] := List.map_eq_nil_iff.mp (hchunks.symm.trans hnone)
  have hnext : (r.expected + 1) &&& 63 ≠ 2 := by rw [hthird]; decide
  rw [Receiver.accept_A]
  refine (Receiver.lands_proceed (by exact hlingering) _ _ _ ?_).cons (plain_fileStart _ _)
  refine .file s f (some d) [] ?_ hneg hnamed ?_ hopen fun heq => absurd heq hnext
  · rw [hpackets, ha, hds]
    rfl
  · exact hnone

theorem Receiver.Follows.lands_D (h : r.Follows packets) (hlingering : r.lingering = none)
    (horder : r.fileName ≠ [] ∧ r.gotEof = false) (seq : ℕ) (d : List Byte) :
    decodeWith r.neg d ≠ none ∧
      Receiver.Lands (packets ++ [(PacketType.D, d)])
        (r.accept timeoutMs seq PacketType.D d) := by
  obtain ⟨s, f, a, ds, hpackets, hneg, hchunks, -⟩ := h.of_open horder.1 horder.2
  refine ⟨by rw [hneg, decodeWith]; exact Option.some_ne_none _, ?_⟩
  rw [Receiver.accept_D _ _ _ hneg]
  refine (Receiver.lands_proceed (by exact hlingering) _ _ _ ?_).cons (plain_progress _ _)
  refine .file s f a (ds ++ [d]) ?_ hneg horder.1 ?_ horder.2 fun _ hnone => ?_
  · rw [hpackets, filePackets, filePackets, List.map_append, List.append_assoc]
    rfl
  · rw [List.map_append, ← hchunks]
    rfl
  · exact absurd hnone (by simp [Receiver.push])

theorem Receiver.Follows.lands_Z (h : r.Follows packets) (hlingering : r.lingering = none)
    (horder : r.fileName ≠ [] ∧ r.gotEof = false) (seq : ℕ) (d : List Byte) :
    Receiver.Lands (packets ++ [(PacketType.Z, d)]) (r.accept timeoutMs seq PacketType.Z d) := by
  by_cases hd : d.head? = some 0x44
  · rw [Receiver.accept, if_neg (by decide), if_neg (by decide), if_neg (by decide),
      if_neg (by decide), if_pos rfl]
    dsimp only
    rw [if_pos hd]
    exact Receiver.Lands.cons (Receiver.lands_fail _ _) (plain_write _)
  · obtain ⟨s, f, a, ds, hpackets, hneg, hchunks, -⟩ := h.of_open horder.1 horder.2
    rw [Receiver.accept_Z _ _ _ hd]
    refine Receiver.lands_proceed (by exact hlingering) _ _ _ ?_
    exact .eof s f a ds d (by rw [hpackets]) hneg horder.1 hchunks rfl

/-- Only after the end of the file `B` completes the transfer. -/
theorem Receiver.Follows.lands_B (h : r.Follows packets) (seq : ℕ) (d : List Byte) :
    Receiver.Lands (packets ++ [(PacketType.B, d)]) (r.accept timeoutMs seq PacketType.B d) := by
  have hearly : r.gotEof = false →
      Receiver.Lands (packets ++ [(PacketType.B, d)])
        (r.accept timeoutMs seq PacketType.B d) := by
    intro heof
    rw [Receiver.accept_B, Receiver.finish, if_pos (by simp [Receiver.sendAck, heof])]
    exact Receiver.Lands.cons (Receiver.lands_fail _ _) (plain_write _)
  cases h with
  | start _ _ _ _ heof => exact hearly heof
  | inited s _ _ _ _ heof => exact hearly heof
  | file s f a ds _ _ _ _ heof => exact hearly heof
  | eof s f a ds z hpackets hneg hname hchunks heof =>
      rw [Receiver.accept_B, Receiver.finish, if_neg (by simp [Receiver.sendAck, heof])]
      refine Receiver.Lands.cons ?_ (plain_write _)
      dsimp only
      split
      · refine Receiver.lands_of_plain ?_ ?_
        · simp [Plain]
        · exact fun hdone => by cases hdone
      · refine ⟨by simp, fun data msg name he => ⟨rfl, ?_⟩, fun hdone => by cases hdone⟩
        cases List.mem_singleton.mp he
        refine ⟨_, rfl, s, f, a, ds, z, d, ?_, ?_⟩
        · rw [hpackets, List.append_assoc]
          rfl
        · exact congrArg List.flatten hchunks

/-- A packet whose turn it is, of the types that the receiver knows in turn. -/
theorem Receiver.Follows.lands_taken (h : r.Follows packets) (hlingering : r.lingering = none)
    (htakes : r.takes p = some d) (horder : r.InOrder p.type) :
    Receiver.Lands (packets ++ r.accepted p) (r.handle timeoutMs p) := by
  have h0 : Receiver.Follows { r with tries := 0 } packets := h.congr rfl rfl rfl rfl rfl
  have hl0 : ({ r with tries := 0 } : Receiver).lingering = none := hlingering
  rw [Receiver.handle_of_takes htakes]
  generalize p.seq.toNat = seq
  have hplain : ∀ type, p.type = type → type ≠ PacketType.F → type ≠ PacketType.D →
      type ∈ [PacketType.S, PacketType.F, PacketType.A, PacketType.D, PacketType.Z,
        PacketType.B] → r.accepted p = [(type, d)] := by
    intro type htype hnotF hnotD hmem
    rw [← htype] at hnotF hnotD hmem ⊢
    exact Receiver.accepted_of_takes htakes (fun hcon => absurd hcon hnotF)
      (fun hcon => absurd hcon hnotD) hmem
  by_cases hS : p.type = PacketType.S
  · rw [hplain _ hS (by decide) (by decide) (by decide), hS]
    exact h0.lands_S hl0 (horder.init hS) seq d
  by_cases hF : p.type = PacketType.F
  · by_cases hneg : r.neg = none
    · have hnot : r.accepted p = [] := by
        rw [Receiver.accepted, htakes]
        exact if_pos ⟨hF, hneg⟩
      rw [hnot, List.append_nil, hF, Receiver.accept, if_neg (by decide), if_pos rfl]
      split
      · exact Receiver.lands_of_plain plain_nil fun _ => ⟨hl0, h0⟩
      · next hsome => cases hneg.symm.trans hsome
    · obtain ⟨neg, hsome⟩ := Option.ne_none_iff_exists'.mp hneg
      have hone : r.accepted p = [(p.type, d)] := by
        refine Receiver.accepted_of_takes htakes (fun _ => hneg) (fun hD => ?_) ?_
        · rw [hF] at hD
          cases hD
        · rw [hF]
          decide
      rw [hone, hF]
      exact h0.lands_F hl0 hsome (horder.file hF hneg) seq d
  by_cases hA : p.type = PacketType.A
  · rw [hplain _ hA (by decide) (by decide) (by decide), hA]
    exact h0.lands_A hl0 (horder.attr hA) seq d
  by_cases hD : p.type = PacketType.D
  · obtain ⟨hdecode, hlands⟩ := h0.lands_D hl0 (horder.data (.inl hD)) seq d
    have hone : r.accepted p = [(p.type, d)] := by
      refine Receiver.accepted_of_takes htakes (fun hcon => absurd hcon hF) (fun _ => hdecode) ?_
      rw [hD]
      decide
    rw [hone, hD]
    exact hlands
  by_cases hZ : p.type = PacketType.Z
  · rw [hplain _ hZ (by decide) (by decide) (by decide), hZ]
    exact h0.lands_Z hl0 (horder.data (.inr hZ)) seq d
  by_cases hB : p.type = PacketType.B
  · rw [hplain _ hB (by decide) (by decide) (by decide), hB]
    exact h0.lands_B seq d
  have hnot : r.accepted p = [] := by
    rw [Receiver.accepted, htakes]
    dsimp only
    rw [if_neg fun hcon => hF hcon.1, if_neg fun hcon => hD hcon.1,
      if_neg (by simp [hS, hF, hA, hD, hZ, hB])]
  rw [hnot, List.append_nil, Receiver.accept, if_neg hS, if_neg hF, if_neg hA, if_neg hD,
    if_neg hZ, if_neg hB]
  exact Receiver.lands_fail _ _

theorem Receiver.Follows.lands_packet (h : r.Follows packets) (hlingering : r.lingering = none)
    (horder : (r.takes p).isSome → r.InOrder p.type) :
    Receiver.Lands (packets ++ r.accepted p) (r.handle timeoutMs p) := by
  cases htakes : r.takes p with
  | some d =>
      refine h.lands_taken hlingering htakes (horder ?_)
      rw [htakes]
      rfl
  | none =>
      have hnot : r.accepted p = [] := by rw [Receiver.accepted, htakes]
      obtain ⟨hplain, hstate⟩ := Receiver.handle_of_not_takes timeoutMs htakes
      rw [hnot, List.append_nil]
      refine Receiver.lands_of_plain hplain fun hdone => ?_
      rcases hstate with hsame | hended
      · rw [hsame]
        exact ⟨hlingering, h⟩
      · rw [hended] at hdone
        cases hdone

/-! ## Runs -/

theorem Receiver.Lands.inv (h : x.Inv) (hdone : x.receiver.done = false)
    {a : Receiver × List ReceiverEffect} {more : List (Byte × List Byte)}
    (hlands : Receiver.Lands (x.accepted ++ more) a) :
    Reception.Inv ⟨a.1, x.accepted ++ more, x.effects ++ a.2⟩ where
  throws he := by
    rcases List.mem_append.mp he with he | he
    · exact h.throws he
    · exact hlands.throws he
  complete data msg name he := by
    rcases List.mem_append.mp he with he | he
    · rw [(h.complete data msg name he).1] at hdone
      cases hdone
    · exact hlands.complete data msg name he
  follows := hlands.follows

/-- A receiver that is through accepts nothing and reports nothing more. -/
theorem Reception.Inv.of_done (h : x.Inv) {t : Receiver} (ht : t.done = true) (hes : Plain es) :
    Reception.Inv ⟨t, x.accepted, x.effects ++ es⟩ where
  throws he := by
    rcases List.mem_append.mp he with he | he
    · exact h.throws he
    · exact hes.1 he
  complete data msg name he := by
    rcases List.mem_append.mp he with he | he
    · exact ⟨ht, (h.complete data msg name he).2⟩
    · exact absurd he (hes.2 data msg name)
  follows hnot := by
    rw [ht] at hnot
    cases hnot

theorem Receiver.Follows.lands_timeout (h : r.Follows packets) (hlingering : r.lingering = none) :
    Receiver.Lands packets r.timeout := by
  rw [Receiver.timeout]
  dsimp only
  split
  · exact Receiver.lands_of_plain plain_nil fun _ => ⟨hlingering, h.congr rfl rfl rfl rfl rfl⟩
  · split
    · exact Receiver.lands_fail _ _
    · exact Receiver.lands_of_plain (plain_write _) fun _ =>
        ⟨hlingering, h.congr rfl rfl rfl rfl rfl⟩

/-- A receiver that is through stays so. -/
theorem Receiver.step_of_done (timeoutMs : ℕ) (hdone : r.done = true) (e : ReceiverEvent) :
    Plain (r.step timeoutMs e).2 ∧ (r.step timeoutMs e).1.done = true := by
  cases e with
  | packet p =>
      rw [Receiver.step]
      split
      · refine ⟨?_, hdone⟩
        rw [Receiver.handleLinger]
        split
        · exact plain_writes _
        · exact plain_nil
      · rw [Receiver.handle, if_pos (.inl hdone)]
        exact ⟨plain_nil, hdone⟩
  | timeout =>
      rw [Receiver.step]
      split
      · rw [Receiver.timeout]
        dsimp only
        rw [if_pos (.inl hdone)]
        exact ⟨plain_nil, hdone⟩
      · exact ⟨plain_nil, hdone⟩
  | cancel =>
      rw [Receiver.step, Receiver.cancel]
      exact ⟨Receiver.plain_fail _ _, Receiver.done_fail _ _⟩
  | stop => exact ⟨plain_nil, hdone⟩

theorem Receiver.accepted_of_done (hdone : r.done = true) (p : Packet) : r.accepted p = [] := by
  rw [Receiver.accepted, Receiver.takes, if_pos (.inl hdone)]

theorem Reception.Inv.step {e : ReceiverEvent} {y : Reception} (h : x.Inv) (horder : x.InOrder e)
    (hstep : x.step timeoutMs e = some y) : y.Inv := by
  cases hstep
  cases hdone : x.receiver.done with
  | true =>
      obtain ⟨hplain, hended⟩ := Receiver.step_of_done timeoutMs hdone e
      have hsame := h.of_done hended hplain
      cases e with
      | packet p =>
          dsimp only
          rw [Receiver.accepted_of_done hdone, List.append_nil]
          exact hsame
      | timeout => exact (List.append_nil x.accepted).symm ▸ hsame
      | cancel => exact (List.append_nil x.accepted).symm ▸ hsame
      | stop => exact (List.append_nil x.accepted).symm ▸ hsame
  | false =>
      obtain ⟨hlingering, hfollows⟩ := h.follows hdone
      have hnil : x.receiver.Follows (x.accepted ++ []) := by rwa [List.append_nil]
      cases e with
      | packet p =>
          refine Receiver.Lands.inv h hdone ?_
          rw [Receiver.step, hlingering]
          exact hfollows.lands_packet hlingering horder
      | timeout =>
          refine Receiver.Lands.inv h hdone ?_
          change Receiver.Lands (x.accepted ++ []) (x.receiver.step timeoutMs .timeout)
          rw [Receiver.step]
          split
          · exact hnil.lands_timeout hlingering
          · exact Receiver.lands_of_plain plain_nil fun _ => ⟨hlingering, hnil⟩
      | cancel => exact Receiver.Lands.inv h hdone (Receiver.lands_fail _ _)
      | stop =>
          refine Receiver.Lands.inv h hdone (Receiver.lands_of_plain plain_nil fun _ => ⟨rfl, ?_⟩)
          exact hnil.congr rfl rfl rfl rfl rfl

theorem Reception.inv_start : Reception.start.Inv where
  throws := by decide +kernel
  complete data msg name he := by
    cases List.mem_singleton.mp he
  follows _ := ⟨rfl, .start rfl rfl rfl rfl rfl⟩

/-- As long as the packets that come are in order, nothing is thrown, and a transfer that is
reported complete was one file, with the bytes of its data packets. -/
theorem good_of_inOrder {events : List ReceiverEvent}
    (horder : Transition.Meets (Reception.step timeoutMs) Reception.InOrder .start events)
    (hrun : Transition.exec (Reception.step timeoutMs) .start events = some x) : x.Good := by
  have h : x.Inv := Transition.exec_invariant_of_meets
    (fun _ _ _ h horder hstep => h.step horder hstep) Reception.inv_start horder hrun
  exact ⟨h.throws, fun data msg name he => (h.complete data msg name he).2⟩

instance (r : Receiver) (type : Byte) : Decidable (r.InOrder type) :=
  decidable_of_iff
    ((type = PacketType.S → r.neg = none) ∧
      (type = PacketType.F → r.neg ≠ none → r.fileName = []) ∧
      (type = PacketType.A →
        r.fileName ≠ [] ∧ r.gotEof = false ∧ r.expected = 2 ∧ r.chunks = []) ∧
      (type = PacketType.D ∨ type = PacketType.Z → r.fileName ≠ [] ∧ r.gotEof = false))
    ⟨fun h => ⟨h.1, h.2.1, h.2.2.1, h.2.2.2⟩, fun h => ⟨h.init, h.file, h.attr, h.data⟩⟩

instance (x : Reception) : DecidablePred x.InOrder
  | .packet p => inferInstanceAs
      (Decidable ((x.receiver.takes p).isSome → x.receiver.InOrder p.type))
  | .timeout | .cancel | .stop => isTrue trivial

/-- One file of two bytes, with one packet sent twice. -/
def oneFile : List ReceiverEvent :=
  [.packet (packetFrame 0 PacketType.S (initParams 10000) 1),
    .packet (packetFrame 1 PacketType.F [0x61] 3), .timeout,
    .packet (packetFrame 1 PacketType.F [0x61] 3),
    .packet (packetFrame 2 PacketType.D [0x62, 0x63] 3),
    .packet (packetFrame 3 PacketType.Z [] 3), .packet (packetFrame 4 PacketType.B [] 3)]

theorem good_of_inOrder_oneFile :
    ∃ x, Transition.exec (Reception.step 0) .start oneFile = some x ∧
      .complete true (some [0x62, 0x63]) none (some (lit "a")) ∈ x.effects ∧ x.Good := by
  have hview : (Transition.exec (Reception.step 0) .start oneFile).map
      (fun x => decide (.complete true (some [0x62, 0x63]) none (some (lit "a")) ∈ x.effects)) =
      some true := by decide +kernel
  obtain ⟨x, hx, hcomplete⟩ := Option.map_eq_some_iff.mp hview
  have horder : Transition.Meets (Reception.step 0) Reception.InOrder .start oneFile := by
    decide +kernel
  exact ⟨x, hx, of_decide_eq_true hcomplete, good_of_inOrder horder hx⟩

/-- Data come before the parameters: `decode` reads a field of `null`. -/
def dataFirst : List ReceiverEvent := [.packet (packetFrame 0 PacketType.D [0x41] 1)]

/-- A transfer without a file. -/
def noFile : List ReceiverEvent :=
  [.packet (packetFrame 0 PacketType.S (initParams 10000) 1),
    .packet (packetFrame 1 PacketType.Z [] 3), .packet (packetFrame 2 PacketType.B [] 3)]

theorem not_good_receiver :
    (¬ ∀ events x, Transition.exec (Reception.step 0) .start events = some x →
      .throws ∉ x.effects) ∧
    ¬ ∀ events x, Transition.exec (Reception.step 0) .start events = some x →
      ∀ data msg name, .complete true data msg name ∈ x.effects →
        ∃ bytes, data = some bytes ∧ WellOrdered x.accepted bytes := by
  constructor
  · intro h
    have hview : (Transition.exec (Reception.step 0) .start dataFirst).map
        (fun x => decide (.throws ∈ x.effects)) = some true := by decide +kernel
    obtain ⟨x, hx, hthrows⟩ := Option.map_eq_some_iff.mp hview
    exact h dataFirst x hx (of_decide_eq_true hthrows)
  · intro h
    have hview : (Transition.exec (Reception.step 0) .start noFile).map
        (fun x => (decide (.complete true (some []) none (some []) ∈ x.effects),
          x.accepted.map Prod.fst)) =
        some (true, [PacketType.S, PacketType.Z, PacketType.B]) := by decide +kernel
    obtain ⟨x, hx, hboth⟩ := Option.map_eq_some_iff.mp hview
    rw [Prod.mk.injEq, decide_eq_true_iff] at hboth
    obtain ⟨bytes, -, s, f, a, ds, z, b, hpackets, -⟩ := h noFile x hx _ _ _ hboth.1
    have htypes := hboth.2
    rw [hpackets] at htypes
    cases a <;> simp [filePackets, PacketType.F, PacketType.Z] at htypes

end Kermit

end Voyager
