/-
The public discovery gate (`teardrop/mcp_gateway.py`): a POST whose body is a JSON object with the method `tools/call` is
classified for execution, whatever its other entries are. The readers of the client's name never raise on it, so the
`except` branch of the sniffing, which falls open to public discovery, is not taken.
-/
import Teardrop.Mcp.Gateway

namespace Teardrop.Gateway

open Py PyJson Utf8

/-! ## Blank bodies -/

/-- the character of an ASCII byte -/
def asciiChar (b : UInt8) : PyChar := ⟨b.toNat, lt_trans (UInt8.toNat_lt b) (by norm_num)⟩

theorem encodeChar_asciiChar {b : UInt8} (h : b.toNat < 128) : encodeChar (asciiChar b) = [b] := by
  have hval : (asciiChar b).val = b.toNat := rfl
  rw [encodeChar, hval, if_pos h, UInt8.ofNat_toNat]

variable {bytes : List UInt8} (limit : ℕ) {P : Exchange → Prop} {Q : Exit Exc GateOutcome → Exchange → Prop}

theorem decodeUtf8_ascii (h : ∀ b ∈ bytes, b.toNat < 128) : decodeUtf8 bytes = some (bytes.map asciiChar) := by
  have hbytes : (bytes.map asciiChar).flatMap encodeChar = bytes := by
    rw [List.flatMap_map]
    calc bytes.flatMap (fun b => encodeChar (asciiChar b))
      _ = bytes.flatMap (fun b => [b]) := List.flatMap_congr fun b hb => encodeChar_asciiChar (h b hb)
      _ = bytes := List.flatMap_singleton' bytes
  have hsurrogate : (bytes.map asciiChar).any PyChar.isSurrogate = false := by
    rw [List.any_eq_false]
    intro c hc
    obtain ⟨b, hb, rfl⟩ := List.mem_map.mp hc
    have hlt := h b hb
    have hval : (asciiChar b).val = b.toNat := rfl
    simp only [PyChar.isSurrogate, hval, Bool.and_eq_true, decide_eq_true_eq]
    omega
  apply decodeUtf8_encodeUtf8
  rw [encodeUtf8, hsurrogate, hbytes]
  rfl

theorem decodeJson_plain (h : ∀ b ∈ bytes, b.toNat < 128 ∧ b ≠ 0) : decodeJson bytes = some (bytes.map asciiChar) := by
  rw [← decodeUtf8_ascii (fun b hb => (h b hb).1)]
  cases bytes with
  | nil => rfl
  | cons a rest => exact decodeJson_ascii (h a List.mem_cons_self) (fun b hb => (h b (List.mem_cons_of_mem a (List.mem_of_mem_head? hb))).2)

theorem isBlankByte_cases {b : UInt8} (h : isBlankByte b = true) : b.toNat = 32 ∨ (9 ≤ b.toNat ∧ b.toNat ≤ 13) := by
  simp only [isBlankByte, Bool.or_eq_true, Bool.and_eq_true, decide_eq_true_eq] at h
  rcases h with rfl | h
  · exact .inl rfl
  · exact .inr h

theorem blank_ne {c : PyChar} (h : c.val = 32 ∨ (9 ≤ c.val ∧ c.val ≤ 13)) {d : Char} (hd : 33 ≤ d.toNat) :
    c ≠ PyChar.ofChar d := by
  rintro rfl
  have hval : (PyChar.ofChar d).val = d.toNat := rfl
  omega

theorem words_head : ∀ word ∈ words, ∃ (d : Char) (t : PyStr), word.1 = PyChar.ofChar d :: t ∧ 33 ≤ d.toNat := by
  intro word hword
  simp only [words, List.mem_cons, List.not_mem_nil, or_false] at hword
  rcases hword with rfl | rfl | rfl | rfl | rfl | rfl <;> exact ⟨_, _, rfl, by decide⟩

theorem scanValue_blank {c : PyChar} (h : c.val = 32 ∨ (9 ≤ c.val ∧ c.val ≤ 13)) (rest : PyStr) (r : PyJson × PyStr) :
    scanValue limit (c :: rest) ≠ .ok r := by
  have hword : words.find? (fun w => w.1.isPrefixOf (c :: rest)) = none := by
    rw [List.find?_eq_none]
    intro word hword
    obtain ⟨d, t, hd, hge⟩ := words_head word hword
    rw [hd]
    simp only [List.isPrefixOf, Bool.and_eq_true, beq_iff_eq, not_and]
    exact fun heq => absurd heq.symm (blank_ne h hge)
  have hdigit : c.isDigit = false := by
    simp only [PyChar.isDigit, Bool.and_eq_false_iff, decide_eq_false_iff_not]
    have hzero : '0'.toNat = 48 := rfl
    omega
  unfold scanValue
  simp only [if_neg (blank_ne h (by decide : 33 ≤ '"'.toNat)), if_neg (blank_ne h (by decide : 33 ≤ '['.toNat)),
    if_neg (blank_ne h (by decide : 33 ≤ '\x7b'.toNat)), scanScalar, hword, if_neg (blank_ne h (by decide : 33 ≤ '-'.toNat)),
    scanNumber, scanWhole, if_neg (blank_ne h (by decide : 33 ≤ '0'.toNat)), hdigit]
  exact fun h => by cases h

/-- `json.loads` of blanks is an error -/
theorem loads_blank {s : PyStr} (h : ∀ c ∈ s, c.val = 32 ∨ (9 ≤ c.val ∧ c.val ≤ 13)) (v : PyJson) :
    loads limit s ≠ .ok v := by
  rw [loads]
  cases hs : skipBlanks s with
  | nil =>
    unfold scanValue
    exact fun h => by cases h
  | cons c rest =>
    have hc := h c ((List.dropWhile_suffix _).subset (hs ▸ List.mem_cons_self))
    cases hscan : scanValue limit (c :: rest) with
    | error e => exact fun h => by cases h
    | ok r => exact absurd hscan (scanValue_blank limit hc rest r)

theorem loadsBytes_blank (h : bytes.all isBlankByte = true) (v : PyJson) : loadsBytes limit bytes ≠ .ok v := by
  have hblank : ∀ b ∈ bytes, b.toNat = 32 ∨ (9 ≤ b.toNat ∧ b.toNat ≤ 13) := by
    intro b hb
    exact isBlankByte_cases (List.all_eq_true.mp h b hb)
  have hplain : ∀ b ∈ bytes, b.toNat < 128 ∧ b ≠ 0 := by
    intro b hb
    have hb' := hblank b hb
    refine ⟨by omega, ?_⟩
    rintro rfl
    simp at hb'
  rw [loadsBytes, decodeJson_plain hplain]
  apply loads_blank
  intro c hc
  obtain ⟨b, hb, rfl⟩ := List.mem_map.mp hc
  exact hblank b hb

/-! ## Names of clients -/

theorem getD_dict {v : PyJson} (h : v.isDict = true) (key : PyStr) (default : PyJson) :
    getD v key default = .ok ((v.get? key).getD default) := if_pos h

theorem getIfDict_ok (v : PyJson) (key : PyStr) : ∃ x, getIfDict v key = .ok x := by
  rw [getIfDict]
  split_ifs with h
  · exact ⟨_, getD_dict h key .null⟩
  · exact ⟨_, rfl⟩

theorem mcpMetaClientName_ok (params : PyJson) : ∃ name, mcpMetaClientName params = .ok name := by
  rw [mcpMetaClientName]
  by_cases hdict : params.isDict = true
  · obtain ⟨clientInfo, hclientInfo⟩ := getIfDict_ok ((params.get? "_meta").getD .null) "io.modelcontextprotocol/clientInfo"
    obtain ⟨name, hname⟩ := getIfDict_ok clientInfo "name"
    rw [if_neg (not_not.mpr hdict), getD_dict hdict]
    simp only [bind, Except.bind, hclientInfo, hname]
    cases name <;> exact ⟨_, rfl⟩
  · exact ⟨none, if_pos hdict⟩

theorem mcpClientName_ok (params : PyJson) : ∃ name, mcpClientName params = .ok name := by
  rw [mcpClientName]
  by_cases hdict : params.isDict = true
  · obtain ⟨name, hname⟩ := getIfDict_ok ((params.get? "clientInfo").getD .null) "name"
    obtain ⟨metaName, hmeta⟩ := mcpMetaClientName_ok params
    rw [if_neg (not_not.mpr hdict), getD_dict hdict]
    simp only [bind, Except.bind, hname, hmeta]
    cases name <;> exact ⟨_, rfl⟩
  · exact ⟨none, if_pos hdict⟩

theorem sniffClient_ok {data : PyJson} (hdict : data.isDict = true) : ∃ x, sniffClient data = .ok x := by
  obtain ⟨name, hname⟩ := mcpClientName_ok ((data.get? "params").getD .null)
  obtain ⟨metadata, hmetadata⟩ := getIfDict_ok ((data.get? "params").getD .null) "_meta"
  rw [sniffClient, getD_dict hdict]
  simp only [bind, Except.bind, hname, hmetadata]
  exact ⟨_, rfl⟩

/-! ## Calls -/

/-- a POST to the gateway whose body is a JSON object with the method `tools/call` -/
structure ToolsCall (w : World) (r : Request) (data : PyJson) : Prop where
  intercepted : w.mounted = true ∨ r.underMcp = true
  post : r.method = "POST"
  json : loadsBytes w.limit r.body = .ok data
  dict : data.isDict = true
  method : data.get? "method" = some (.str "tools/call")

variable {w : World} {r : Request} {data : PyJson}

theorem ToolsCall.readJsonrpc (h : ToolsCall w r data) : readJsonrpc w r = data := by
  simp [Gateway.readJsonrpc, h.json, h.dict]

theorem ToolsCall.sniff (h : ToolsCall w r data) : sniff w r = .ok (.execution (reqIdOf data)) := by
  have hblank : r.body.all isBlankByte ≠ true := fun hall => loadsBytes_blank w.limit hall data h.json
  have hmessage : isMessage data = true := by
    simp [isMessage, h.method]
  obtain ⟨client, hclient⟩ := sniffClient_ok h.dict
  have htruthy : (PyJson.str (PyStr.ofString "tools/call")).truthy = true := by decide
  have hsmithery : PyJson.str (PyStr.ofString "tools/call") ≠ .str (PyStr.ofString "ai.smithery/events/list") := by decide
  have hbody : sniffBody w r = .ok data := by
    rw [sniffBody, if_neg hblank, h.json, Mpp.ofJson]
  have hcount : countRequest data (.str (PyStr.ofString "tools/call")) = .ok (some client) := by
    rw [countRequest, if_pos htruthy, hclient, Except.map]
  rw [Gateway.sniff, hbody]
  simp only [bind, Except.bind, getD_dict h.dict, h.method, Option.getD_some, hcount, if_neg hsmithery, hmessage, not_true,
    false_and, if_false, ne_eq]
  rfl

/-- **Classification.** A `tools/call` is never public discovery and never a probe: it is executed. -/
theorem ToolsCall.route (h : ToolsCall w r data) : route w r = .execution (reqIdOf data) := by
  rw [Gateway.route, if_neg (not_not.mpr h.post), h.sniff]

theorem ToolsCall.dispatch (h : ToolsCall w r data) : dispatch w r = execute w r (reqIdOf data) := by
  have hintercepted : ¬ (¬ w.mounted ∧ ¬ r.underMcp) := by
    rintro ⟨hmounted, hunder⟩
    exact h.intercepted.elim hmounted hunder
  rw [Gateway.dispatch, if_neg hintercepted, h.route]

/-! ## The gate of a call -/

/-- a body of a `tools/call`, read at the gate -/
theorem ToolsCall.gateData (h : ToolsCall w r data) : gateData w r = .ok (some data) := by
  rw [Gateway.gateData, h.json]

theorem billingGate_ends (h : ToolsCall w r data) (hbilling : w.settings.mcpBillingEnabled = true)
    (hpaid : ∀ s, P s → ¬ (s.x402Billing = none ∧ s.mcpOrgId = none)) (hbody : Coro.Ends P (gateBody w r data) Q) :
    Coro.Ends P (billingGate w r) Q := by
  refine Coro.Ends.get (fun s' => ?_)
  by_cases hnone : s'.x402Billing = none ∧ s'.mcpOrgId = none
  · rintro s ⟨hs, rfl⟩
    exact absurd hnone (hpaid s hs)
  · have hopen : ¬ (¬ w.settings.mcpBillingEnabled = true ∨ s'.x402Billing = none ∧ s'.mcpOrgId = none ∨ r.method ≠ "POST") := by
      simp [hbilling, hnone, h.post]
    rw [if_neg hopen, h.gateData]
    exact hbody.strengthen (fun s hs => hs.1)

/-- the gate of a `tools/call`: it prices the call, or raises -/
theorem gateBody_ends (h : ToolsCall w r data) (herror : ∀ e, billedCall w data = .error e → ∀ s, P s → Q (.raised e) s)
    (hpass : billedCall w data = .ok none → ∀ s, P s → Q (.returned .pass) s)
    (hbilled : ∀ name toolCost, billedCall w data = .ok (some (name, toolCost)) → Coro.Ends P (do
      let s ← Coro.get id
      let pending : Pending := ⟨s.mcpOrgId, toolCost, name, reqIdOf data⟩
      match s.x402Billing with
      | some (.mpp p) => return .pending { pending with toolCost := p.amountUsdc }
      | some (.x402 p) => gateX402 w r p pending
      | none => gateCredit w data pending : Run GateOutcome) Q) :
    Coro.Ends P (gateBody w r data) Q := by
  rw [gateBody, getD_dict h.dict, h.method]
  refine Coro.Ends.lift (fun method hmethod => ?_) (fun e he => nomatch he)
  rw [← Except.ok.inj hmethod, Option.getD_some, if_neg (not_not.mpr rfl)]
  refine Coro.Ends.lift (fun billed hok => ?_) herror
  rcases billed with _ | ⟨name, toolCost⟩
  · exact Coro.Ends.pure (hpass hok)
  · exact hbilled name toolCost hok

theorem isDict_of_get? {v x : PyJson} {key : PyStr} (h : v.get? key = some x) : v.isDict = true := by
  cases v with
  | obj fields => rfl
  | _ => cases h

theorem toolCallName_isSome (h : (toolCallName data).isSome) :
    ∃ params name, data.get? "params" = some params ∧ params.get? "name" = some (.str name) ∧ name ≠ [] := by
  rw [toolCallName] at h
  split at h
  · rename_i name hname
    split_ifs at h with hempty
    · cases h
    · obtain ⟨params, hparams, hname⟩ := Option.bind_eq_some_iff.mp hname
      exact ⟨params, name, hparams, hname, hempty⟩
  · cases h

theorem billedCall_named (h : (toolCallName data).isSome) : billedCall w data ≠ .ok none := by
  obtain ⟨params, name, hparams, hname, hne⟩ := toolCallName_isSome h
  have htruthy : (PyJson.str name).truthy = true := decide_eq_true hne
  rw [billedCall, getD_dict (isDict_of_get? hparams), hparams]
  intro hok
  obtain ⟨params', hparams', hok⟩ := bind_eq_ok hok
  cases Except.ok.inj hparams'
  rw [Option.getD_some, getD_dict (isDict_of_get? hname), hname] at hok
  obtain ⟨toolName, htoolName, hok⟩ := bind_eq_ok hok
  cases Except.ok.inj htoolName
  rw [Option.getD_some, if_neg (not_not.mpr htruthy)] at hok
  obtain ⟨toolCost, -, hok⟩ := bind_eq_ok hok
  cases hok

end Teardrop.Gateway
