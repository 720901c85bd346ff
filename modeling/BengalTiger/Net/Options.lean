import BengalTiger.Net.Frame

set_option autoImplicit false

/-!
# The options of a DHCP message

The option area of a DHCP message is a list of options, each a code, a length and that many bytes,
with zero bytes for padding, up to a byte 255 or the end. `handle_dhcp` reads it with a loop over
16-bit indices. Here the area is a relation between bytes and options, which allows for an area that
ends inside an option, and the loop is shown to find the options.

## Main definitions

* `Net.Opt` — an option; `Net.Encodes` — the areas that hold some options.
* `Net.messageType`, `Net.address` — what the options say, by the last of
  each kind.

* `Net.IsReplyFor` — the messages that pass the header checks, field by field.

## Main results

* `Net.exists_encodes` — every area holds some options.
* `Net.parseOptions_encodes` — the loop takes the options in order.
* `Net.dhcp_options_decoded` — what an accepted message does.
-/

namespace BengalTiger.Net

open List

/-! ## Options -/

/-- An option of a DHCP message. -/
structure Opt where
  code : UInt8
  data : List UInt8
  code_ne_pad : code ≠ 0
  code_ne_end : code ≠ 255
  length_le : data.length ≤ 255

/-- The bytes of an option. -/
def Opt.bytes (o : Opt) : List UInt8 := o.code :: UInt8.ofNat o.data.length :: o.data

/-- **The areas that hold some options**: with padding anywhere before an option or the end, and
ended by 255 and any bytes, by the end of the area, or inside an option. -/
inductive Encodes : List UInt8 → List Opt → Prop
  | nil : Encodes [] []
  | stop (rest : List UInt8) : Encodes (255 :: rest) []
  | noLength {code : UInt8} (h0 : code ≠ 0) (hend : code ≠ 255) : Encodes [code] []
  | cut {code olen : UInt8} {data : List UInt8} (h0 : code ≠ 0) (hend : code ≠ 255)
      (h : data.length < olen.toNat) : Encodes (code :: olen :: data) []
  | pad {area : List UInt8} {opts : List Opt} (h : Encodes area opts) : Encodes (0 :: area) opts
  | opt {area : List UInt8} {opts : List Opt} (o : Opt) (h : Encodes area opts) :
      Encodes (o.bytes ++ area) (o :: opts)

/-- **Every area holds some options.** -/
lemma exists_encodes (area : List UInt8) : ∃ opts, Encodes area opts := by
  induction h : area.length using Nat.strong_induction_on generalizing area with
  | _ n ih =>
    subst h
    match area with
    | [] => exact ⟨[], .nil⟩
    | code :: rest =>
      by_cases h0 : code = 0
      · obtain ⟨opts, hopts⟩ := ih rest.length (Nat.lt_succ_self _) rest rfl
        exact ⟨opts, h0 ▸ .pad hopts⟩
      by_cases hend : code = 255
      · exact ⟨[], hend ▸ .stop rest⟩
      match rest with
      | [] => exact ⟨[], .noLength h0 hend⟩
      | olen :: data =>
        by_cases hlt : data.length < olen.toNat
        · exact ⟨[], .cut h0 hend hlt⟩
        · have hdata : (data.take olen.toNat).length = olen.toNat :=
            length_take_of_le (by omega)
          have hbound : olen.toNat < 256 := olen.toNat_lt
          obtain ⟨opts, hopts⟩ := ih (data.drop olen.toNat).length (by
            rw [length_drop, length_cons, length_cons]
            omega) (data.drop olen.toNat) rfl
          let o : Opt := ⟨code, data.take olen.toNat, h0, hend, by omega⟩
          have hbytes : o.bytes ++ data.drop olen.toNat = code :: olen :: data := by
            show code :: UInt8.ofNat (data.take olen.toNat).length ::
              (data.take olen.toNat ++ data.drop olen.toNat) = _
            rw [hdata, UInt8.ofNat_toNat, take_append_drop]
          exact ⟨o :: opts, hbytes ▸ .opt o hopts⟩

/-- The last option of a code with at least `n` bytes of data. -/
def lastOption (opts : List Opt) (code : UInt8) (n : ℕ) : Option Opt :=
  opts.reverse.find? fun o => o.code = code ∧ n ≤ o.data.length

/-- The big-endian value of the first four bytes. -/
def firstWord (data : List UInt8) : UInt32 :=
  be32 (data.getD 0 0) (data.getD 1 0) (data.getD 2 0) (data.getD 3 0)

/-- The message type that the options tell, 0 if none does. -/
def messageType (opts : List Opt) : UInt8 :=
  ((lastOption opts 53 1).map fun o => o.data.getD 0 0).getD 0

/-- The address that the options tell for a code, 0 if none does. -/
def address (opts : List Opt) (code : UInt8) : UInt32 :=
  ((lastOption opts code 4).map fun o => firstWord o.data).getD 0

/-! ## The loop -/

/-- The effect of an option. -/
def DhcpOpts.take (v : DhcpOpts) (o : Opt) : DhcpOpts :=
  { msgType := if o.code = 53 ∧ 1 ≤ o.data.length then o.data.getD 0 0 else v.msgType
    mask := if o.code = 1 ∧ 4 ≤ o.data.length then firstWord o.data else v.mask
    gw := if o.code = 3 ∧ 4 ≤ o.data.length then firstWord o.data else v.gw
    dns := if o.code = 6 ∧ 4 ≤ o.data.length then firstWord o.data else v.dns
    srv := if o.code = 54 ∧ 4 ≤ o.data.length then firstWord o.data else v.srv }

/-- An access behind a known part. -/
lemma rd_append (pre p : List UInt8) (i : ℕ) : rd (pre ++ p) (pre.length + i) = rd p i := by
  rw [rd, rd, getElem?_append_right (Nat.le_add_right _ _), Nat.add_sub_cancel_left]

lemma rd_head (pre p : List UInt8) (c : UInt8) : rd (pre ++ c :: p) pre.length = .ok c :=
  rd_append pre (c :: p) 0

lemma rd_second (pre p : List UInt8) (c c' : UInt8) :
    rd (pre ++ c :: c' :: p) (pre.length + 1) = .ok c' :=
  rd_append pre (c :: c' :: p) 1

/-- A byte of the data of an option. -/
lemma rd_data (pre rest : List UInt8) {data : List UInt8} {i : ℕ} (h : i < data.length) :
    rd (pre ++ (data ++ rest)) (pre.length + i) = .ok (data.getD i 0) := by
  rw [rd_append, rd_eq (by rw [length_append]; omega), byte_append h, byte]

/-- The first word of the data of an option. -/
lemma rd32_data {pre data rest : List UInt8} (h : 4 ≤ data.length) :
    rd32 (pre ++ (data ++ rest)) pre.length = .ok (firstWord data) := by
  have h0 := rd_data pre rest (show 0 < data.length by omega)
  rw [Nat.add_zero] at h0
  rw [rd32, h0, bind_ok, rd_data pre rest (by omega), bind_ok, rd_data pre rest (by omega), bind_ok,
    rd_data pre rest (by omega), bind_ok]
  rfl

/-- **A complete option** is taken. -/
lemma apply_opt (v : DhcpOpts) (o : Opt) (pre rest : List UInt8) :
    v.apply o.code o.data.length (pre ++ (o.data ++ rest)) pre.length = .ok (v.take o) := by
  unfold DhcpOpts.apply
  split_ifs with h₁ h₂ h₃ h₄ h₅
  · have h0 := rd_data pre rest (show 0 < o.data.length by omega)
    rw [Nat.add_zero] at h0
    rw [h0, bind_ok]
    simp [DhcpOpts.take, h₁]
    rfl
  · rw [rd32_data h₂.2, bind_ok]
    simp [DhcpOpts.take, h₂]
    rfl
  · rw [rd32_data h₃.2, bind_ok]
    simp [DhcpOpts.take, h₃]
    rfl
  · rw [rd32_data h₄.2, bind_ok]
    simp [DhcpOpts.take, h₄]
    rfl
  · rw [rd32_data h₅.2, bind_ok]
    simp [DhcpOpts.take, h₅]
    rfl
  · rw [DhcpOpts.take, if_neg h₁, if_neg h₂, if_neg h₃, if_neg h₄, if_neg h₅]
    rfl

/-- One option is read, and the rest of the area remains. -/
lemma parseOptions_opt (o : Opt) (pre area junk : List UInt8) (n : ℕ) (v : DhcpOpts)
    (h16 : pre.length + (o.bytes.length + area.length) < 65536) :
    parseOptions (pre ++ (o.bytes ++ area ++ junk)) (pre.length + (o.bytes.length + area.length))
        (n + 1) pre.length v =
      parseOptions ((pre ++ o.bytes) ++ (area ++ junk)) ((pre ++ o.bytes).length + area.length) n
        (pre ++ o.bytes).length (v.take o) := by
  have hlen := o.length_le
  have hbytes : o.bytes.length = o.data.length + 2 := rfl
  rw [hbytes] at h16 ⊢
  have hu : u16 (pre.length + 1) = pre.length + 1 := Nat.mod_eq_of_lt (by omega)
  have hu' : u16 (pre.length + 2) = pre.length + 2 := Nat.mod_eq_of_lt (by omega)
  have holen : (UInt8.ofNat o.data.length).toNat = o.data.length :=
    UInt8.toNat_ofNat_of_lt' (by show _ < 256; omega)
  have hnext : u16 (pre.length + 2 + o.data.length) = (pre ++ o.bytes).length := by
    rw [length_append, hbytes, u16, Nat.mod_eq_of_lt (by omega)]
    omega
  have hend : pre.length + (o.data.length + 2 + area.length) =
      (pre ++ o.bytes).length + area.length := by
    rw [length_append, hbytes]
    omega
  have happly := apply_opt v o (pre ++ [o.code, UInt8.ofNat o.data.length]) (area ++ junk)
  have hp : pre ++ (o.bytes ++ area ++ junk) =
      pre ++ o.code :: UInt8.ofNat o.data.length :: (o.data ++ (area ++ junk)) := by
    simp [Opt.bytes]
  have hp' : (pre ++ o.bytes) ++ (area ++ junk) =
      pre ++ o.code :: UInt8.ofNat o.data.length :: (o.data ++ (area ++ junk)) := by
    simp [Opt.bytes]
  have hlen₂ : (pre ++ [o.code, UInt8.ofNat o.data.length]).length = pre.length + 2 := by simp
  rw [append_assoc, cons_append, cons_append, nil_append, hlen₂] at happly
  rw [parseOptions, if_pos (by omega), hp, hp', rd_head, bind_ok, if_neg o.code_ne_pad,
    if_neg o.code_ne_end, hu, if_neg (by omega), rd_second, bind_ok, holen, hu',
    if_neg (by omega), happly, bind_ok, hnext, hend]

/-- **The loop takes the options in order**, from the place where the area begins, in any number of
rounds that is at least the length of the area.

**Proof sketch.** Induction on the area. Padding and options move the place on by their own length,
so that the rest of the area stands there again; the four ends stop the loop. The indices stay below
the end of the area and do not wrap. -/
lemma parseOptions_encodes {area : List UInt8} {opts : List Opt} (h : Encodes area opts)
    (pre junk : List UInt8) {n : ℕ} (v : DhcpOpts) (hn : area.length ≤ n)
    (h16 : pre.length + area.length < 65536) :
    parseOptions (pre ++ (area ++ junk)) (pre.length + area.length) n pre.length v =
      .ok (opts.foldl DhcpOpts.take v) := by
  induction h generalizing pre n v with
  | nil =>
    cases n with
    | zero => rfl
    | succ n =>
      rw [parseOptions, if_neg (by simp)]
      rfl
  | stop rest =>
    rw [length_cons] at hn h16 ⊢
    obtain ⟨n, rfl⟩ := Nat.exists_eq_succ_of_ne_zero (show n ≠ 0 by omega)
    rw [parseOptions, if_pos (by omega), cons_append, rd_head, bind_ok, if_neg (by decide),
      if_pos rfl]
    rfl
  | noLength h0 hend =>
    rw [length_singleton] at hn h16 ⊢
    obtain ⟨n, rfl⟩ := Nat.exists_eq_succ_of_ne_zero (show n ≠ 0 by omega)
    have hu : u16 (pre.length + 1) = pre.length + 1 := Nat.mod_eq_of_lt h16
    rw [parseOptions, if_pos (by omega), cons_append, rd_head, bind_ok, if_neg h0, if_neg hend,
      hu, if_pos le_rfl]
    rfl
  | cut h0 hend hlt =>
    rw [length_cons, length_cons] at hn h16 ⊢
    obtain ⟨n, rfl⟩ := Nat.exists_eq_succ_of_ne_zero (show n ≠ 0 by omega)
    have hu : u16 (pre.length + 1) = pre.length + 1 := Nat.mod_eq_of_lt (by omega)
    have hu' : u16 (pre.length + 2) = pre.length + 2 := Nat.mod_eq_of_lt (by omega)
    rw [parseOptions, if_pos (by omega), cons_append, cons_append, rd_head, bind_ok,
      if_neg h0, if_neg hend, hu, if_neg (by omega), rd_second, bind_ok, hu', if_pos (by omega)]
    rfl
  | @pad area opts _ ih =>
    rw [length_cons] at hn h16 ⊢
    obtain ⟨n, rfl⟩ := Nat.exists_eq_succ_of_ne_zero (show n ≠ 0 by omega)
    have hu : u16 (pre.length + 1) = (pre ++ [0]).length := by
      rw [length_append, length_singleton]
      exact Nat.mod_eq_of_lt (by omega)
    have hrest := ih (pre ++ [0]) v (show area.length ≤ n by omega) (by
      rw [length_append, length_singleton]
      omega)
    rw [parseOptions, if_pos (by omega), cons_append, rd_head, bind_ok, if_pos rfl, hu]
    rw [append_assoc, singleton_append, length_append, length_singleton] at hrest
    rw [length_append, length_singleton, ← hrest]
    congr 1
    omega
  | @opt area opts o _ ih =>
    have hbytes : o.bytes.length = o.data.length + 2 := rfl
    rw [length_append] at hn h16 ⊢
    obtain ⟨n, rfl⟩ := Nat.exists_eq_succ_of_ne_zero (show n ≠ 0 by omega)
    rw [parseOptions_opt o pre area junk n v h16, foldl_cons]
    refine ih (pre ++ o.bytes) (v.take o) (by omega) ?_
    rw [length_append]
    omega

/-! ## What the options say -/

/-- The last option of a kind decides. -/
lemma lastOption_concat (opts : List Opt) (o : Opt) (code : UInt8) (n : ℕ) :
    lastOption (opts ++ [o]) code n =
      if o.code = code ∧ n ≤ o.data.length then some o else lastOption opts code n := by
  rw [lastOption, reverse_concat, find?_cons]
  by_cases h : o.code = code ∧ n ≤ o.data.length
  · rw [if_pos h, decide_eq_true h]
  · rw [if_neg h, decide_eq_false h]
    rfl

lemma messageType_concat (opts : List Opt) (o : Opt) : messageType (opts ++ [o]) =
    if o.code = 53 ∧ 1 ≤ o.data.length then o.data.getD 0 0 else messageType opts := by
  rw [messageType, lastOption_concat]
  split_ifs
  · rfl
  · rfl

lemma address_concat (opts : List Opt) (o : Opt) (code : UInt8) : address (opts ++ [o]) code =
    if o.code = code ∧ 4 ≤ o.data.length then firstWord o.data else address opts code := by
  rw [address, lastOption_concat]
  split_ifs
  · rfl
  · rfl

/-- **The options taken in order** say what the last of each kind says. -/
lemma foldl_take (opts : List Opt) : opts.foldl DhcpOpts.take ⟨0, 0, 0, 0, 0⟩ =
    ⟨messageType opts, address opts 1, address opts 3, address opts 6, address opts 54⟩ := by
  induction opts using List.reverseRecOn with
  | nil => rfl
  | append_singleton opts o ih =>
    rw [foldl_append, foldl_cons, foldl_nil, ih, DhcpOpts.take, messageType_concat,
      address_concat, address_concat, address_concat, address_concat]

/-- A message that passes the header checks of `handle_dhcp`. -/
structure Accepted (s : State) (p : List UInt8) (len : ℕ) (yiaddr : UInt32) : Prop where
  length_ge : 240 ≤ len
  length_le : len ≤ p.length
  length_lt : len < 65536
  op : rd p 0 = .ok 2
  xid : rd32 p 4 = .ok s.dhcp.expectedXid
  magic : rd32 p 236 = .ok dhcpMagicCookie
  chaddr : rdMac p 28 = .ok s.nicMac
  yiaddr : rd32 p 16 = .ok yiaddr

/-- Two readings of an area say the same. -/
lemma messageType_eq_of_encodes {area : List UInt8} {opts opts' : List Opt} (h : Encodes area opts)
    (h' : Encodes area opts') (h16 : area.length < 65536) :
    messageType opts = messageType opts' := by
  have hparse := parseOptions_encodes h [] [] ⟨0, 0, 0, 0, 0⟩ le_rfl (by simpa using h16)
  rw [parseOptions_encodes h' [] [] ⟨0, 0, 0, 0, 0⟩ le_rfl (by simpa using h16), foldl_take,
    foldl_take] at hparse
  exact congrArg DhcpOpts.msgType (Except.ok.inj hparse).symm

/-- What is recorded of an accepted message. -/
def replyTo (s : State) (yiaddr : UInt32) (opts : List Opt) : DhcpReply :=
  ⟨s.dhcp.expectedXid, dhcpMagicCookie, s.nicMac, yiaddr,
    ⟨messageType opts, address opts 1, address opts 3, address opts 6, address opts 54⟩⟩

section Handle

variable {s : State} {p : List UInt8} {len : ℕ} {yiaddr : UInt32} {opts : List Opt}

/-- The option loop on an accepted message. -/
lemma Accepted.parseOptions (hp : Accepted s p len yiaddr)
    (hopts : Encodes ((p.take len).drop 240) opts) {n : ℕ} (hn : len - 240 ≤ n) :
    parseOptions (p.drop 240) (len - 240) n 0 ⟨0, 0, 0, 0, 0⟩ =
      .ok ⟨messageType opts, address opts 1, address opts 3, address opts 6, address opts 54⟩ := by
  have hge := hp.length_ge
  have hlt := hp.length_lt
  have harea : ((p.take len).drop 240).length = len - 240 := by
    rw [length_drop, length_take_of_le hp.length_le]
  have hsplit : p.drop 240 = (p.take len).drop 240 ++ p.drop len := by
    conv_lhs => rw [← take_append_drop len p]
    rw [drop_append_of_le_length (by rw [length_take_of_le hp.length_le]; exact hge)]
  have hloop := parseOptions_encodes hopts [] (p.drop len) ⟨0, 0, 0, 0, 0⟩ (harea ▸ hn)
    (by rw [harea, length_nil]; omega)
  rwa [nil_append, ← hsplit, length_nil, Nat.zero_add, harea, foldl_take] at hloop

/-- An accepted message is recorded. -/
lemma Accepted.handleDhcp (hp : Accepted s p len yiaddr)
    (hopts : Encodes ((p.take len).drop 240) opts) :
    handleDhcp s p len = .ok (s.gotReply (replyTo s yiaddr opts)) := by
  have hparse := hp.parseOptions hopts le_rfl
  obtain ⟨hge, hle, hlt, hop, hxid, hmagic, hchaddr, hyiaddr⟩ := hp
  have hu : u16 (len - 240) = len - 240 := Nat.mod_eq_of_lt (by omega)
  rw [Net.handleDhcp, if_neg (by omega), hop, bind_ok, if_neg (by decide), hxid, bind_ok,
    if_neg (by simp), hmagic, bind_ok, if_neg (by decide), hchaddr, bind_ok, if_neg (by simp),
    hyiaddr, bind_ok]
  simp only [hu]
  rw [hparse]
  rfl

/-- A message for a transaction and a hardware address that passes the header checks. -/
structure IsReplyFor (m : List UInt8) (xid : UInt32) (mac : Mac) : Prop where
  length_ge : 240 ≤ m.length
  op : byte m 0 = 2
  xid : field32 m 4 = xid
  magic : field32 m 236 = dhcpMagicCookie
  chaddr : fieldMac m 28 = mac

/-- Such a message is accepted. -/
lemma IsReplyFor.accepted {m : List UInt8} (h : IsReplyFor m s.dhcp.expectedXid s.nicMac)
    (rest : List UInt8) (h16 : m.length < 65536) :
    Accepted s (m ++ rest) m.length (field32 m 16) := by
  have hge := h.length_ge
  have hlen : (m ++ rest).length = m.length + rest.length := length_append
  refine ⟨hge, by omega, h16, ?_, ?_, ?_, ?_, ?_⟩
  · rw [rd_eq (by omega), byte_append (by omega), h.op]
  · rw [rd32_eq (by omega), field32_append (by omega), h.xid]
  · rw [rd32_eq (by omega), field32_append (by omega), h.magic]
  · rw [rdMac_eq (by omega), fieldMac_append (by omega), h.chaddr]
  · rw [rd32_eq (by omega), field32_append (by omega)]

/-- Any other message is ignored. -/
lemma handleDhcp_of_not {m : List UInt8} (h : ¬ IsReplyFor m s.dhcp.expectedXid s.nicMac)
    (rest : List UInt8) : handleDhcp s (m ++ rest) m.length = .ok s := by
  have hlen : (m ++ rest).length = m.length + rest.length := length_append
  rw [handleDhcp]
  by_cases hge : m.length < 240
  · rw [if_pos hge]
    rfl
  rw [if_neg hge, rd_eq (by omega), byte_append (by omega), bind_ok]
  by_cases hop : byte m 0 = 2
  swap
  · rw [if_pos hop]
    rfl
  rw [if_neg (not_not.2 hop), rd32_eq (by omega), field32_append (by omega), bind_ok]
  by_cases hxid : field32 m 4 = s.dhcp.expectedXid
  swap
  · rw [if_pos hxid]
    rfl
  rw [if_neg (not_not.2 hxid), rd32_eq (by omega), field32_append (by omega), bind_ok]
  by_cases hmagic : field32 m 236 = dhcpMagicCookie
  swap
  · rw [if_pos hmagic]
    rfl
  rw [if_neg (not_not.2 hmagic), rdMac_eq (by omega), fieldMac_append (by omega), bind_ok, if_pos]
  · rfl
  · exact fun hchaddr => h ⟨by omega, hop, hxid, hmagic, hchaddr⟩

end Handle

/-- **The options of an accepted message are decoded**: the loop ends and finds the complete options
in order. An OFFER or ACK, by the last option 53 with data, sets the address, the mask, the gateway,
the name server and the server to what the message says and keeps those for which it says nothing or
0, and is recorded; any other message changes nothing. -/
theorem dhcp_options_decoded {s : State} {p : List UInt8} {len : ℕ} {yiaddr : UInt32}
    (hp : Accepted s p len yiaddr) {opts : List Opt}
    (hopts : Encodes ((p.take len).drop 240) opts) :
    (∀ n, len - 240 ≤ n → parseOptions (p.drop 240) (len - 240) n 0 ⟨0, 0, 0, 0, 0⟩ =
      .ok ⟨messageType opts, address opts 1, address opts 3, address opts 6, address opts 54⟩) ∧
    ∃ t, handleDhcp s p len = .ok t ∧ t = { s with dhcp := t.dhcp, log := t.log } ∧
      t.dhcp = if messageType opts = 2 ∨ messageType opts = 5 then
        { rxMsgType := messageType opts
          expectedXid := s.dhcp.expectedXid
          offeredIp := if yiaddr ≠ 0 then yiaddr else s.dhcp.offeredIp
          offeredMask := if address opts 1 ≠ 0 then address opts 1 else s.dhcp.offeredMask
          offeredGw := if address opts 3 ≠ 0 then address opts 3 else s.dhcp.offeredGw
          offeredDns := if address opts 6 ≠ 0 then address opts 6 else s.dhcp.offeredDns
          offeredSrv := if address opts 54 ≠ 0 then address opts 54 else s.dhcp.offeredSrv }
      else s.dhcp := by
  refine ⟨fun n hn => hp.parseOptions hopts hn, ?_⟩
  exact ⟨s.gotReply (replyTo s yiaddr opts), hp.handleDhcp hopts, rfl, rfl⟩

/-- A server's message, as the first 240 bytes of the protocol and options 53 and 54. -/
def serverMessage (mac : Mac) (msgType : UInt8) (xid yiaddr srv : UInt32) : List UInt8 :=
  [2, 1, 6, 0] ++ toBe32 xid ++ List.replicate 8 0 ++ toBe32 yiaddr ++ List.replicate 8 0 ++
    mac.toList ++ List.replicate 10 0 ++ List.replicate 192 0 ++ toBe32 dhcpMagicCookie ++
    [53, 1, msgType, 54, 4] ++ toBe32 srv ++ [255]

/-- An OFFER with the options 53 and 54. -/
def offerMessage : List UInt8 :=
  serverMessage idleHost.mac 2 idleHost.dhcp.expectedXid 0x0A00020F 0x0A000202

/-- Its option 53. -/
def offerType : Opt := ⟨53, [2], by decide, by decide, by decide⟩

/-- Its option 54. -/
def offerServer : Opt := ⟨54, [10, 0, 2, 2], by decide, by decide, by decide⟩

/-- The decoding at work on an OFFER. -/
theorem dhcp_options_decoded_offer :
    Accepted idleHost offerMessage 250 0x0A00020F ∧
      Encodes ((offerMessage.take 250).drop 240) [offerType, offerServer] ∧
      ∃ t, handleDhcp idleHost offerMessage 250 = .ok t ∧ t.dhcp.rxMsgType = 2 := by
  have hp : Accepted idleHost offerMessage 250 0x0A00020F := by
    refine ⟨by decide, by decide +kernel, by decide, ?_, ?_, ?_, ?_, ?_⟩
    · rfl
    · rfl
    · rfl
    · rfl
    · rfl
  have harea : (offerMessage.take 250).drop 240 = [53, 1, 2, 54, 4, 10, 0, 2, 2, 255] := by
    decide +kernel
  have hopts : Encodes ((offerMessage.take 250).drop 240) [offerType, offerServer] := by
    rw [harea]
    exact .opt offerType (.opt offerServer (.stop []))
  obtain ⟨-, t, ht, -, hdhcp⟩ := dhcp_options_decoded hp hopts
  refine ⟨hp, hopts, t, ht, ?_⟩
  have htype : messageType [offerType, offerServer] = 2 := by decide
  rw [hdhcp, if_pos (.inl htype), htype]

end BengalTiger.Net
