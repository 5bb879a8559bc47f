import Moonshine.Impl.Webserver.Server

/-!
# The requests of a pairing

The request that sends the bytes of a step, in hexadecimal, comes to the call on
the record with just these bytes: `hexDecode_hexEncode`, and one lemma for each
of the requests of `webserver/pairing.rs`, whatever else their forms hold.
-/

namespace Moonshine.Proof.Server

open Moonshine.Framework Moonshine.Impl Moonshine.Impl.Server Moonshine.Impl.Negotiation
open Moonshine.Impl.Pairing (Crates StateData hexEncode)

theorem hexDigit_digitChar {n : Nat} (h : n < 16) : hexDigit (Nat.digitChar n) = some n := by
  have hall : ∀ n : Fin 16, hexDigit (Nat.digitChar n) = some n.val := by decide
  exact hall ⟨n, h⟩

theorem toList_hexEncode (bytes : List Byte) : (hexEncode bytes).toList =
    bytes.flatMap fun b => [Nat.digitChar (b.toNat / 16), Nat.digitChar (b.toNat % 16)] :=
  String.toList_ofList

/-- `hex::decode` takes back what `hex::encode` gives. -/
theorem hexDecode_hexEncode (bytes : List Byte) : hexDecode (hexEncode bytes).toList = some bytes := by
  rw [toList_hexEncode]
  induction bytes with
  | nil => rfl
  | cons b bytes ih =>
    have hb : b.toNat < 256 := b.toNat_lt
    have hsum : 16 * (b.toNat / 16) + b.toNat % 16 = b.toNat := Nat.div_add_mod ..
    rw [List.flatMap_cons, List.cons_append, List.cons_append, List.nil_append, hexDecode,
      hexDigit_digitChar (by omega), hexDigit_digitChar (by omega), ih]
    simp [hsum]

variable {x : Crates} {server : Config x} {params : Params} {draws : Draws}

/-- Of the values of a name, the last is found. -/
theorem get?_collect (pairs : List (String × String)) (name : String) :
    (collect pairs).get? name = (pairs.reverse.find? fun p => p.1 = name).map Prod.snd := by
  induction pairs using List.reverseRecOn with
  | nil => rfl
  | append_singleton pairs p ih =>
    rw [collect, List.foldl_append, List.foldl_cons, List.foldl_nil, HashMap.get?_insert, List.reverse_concat,
      List.find?_cons, ← collect, ih]
    by_cases h : name = p.1
    · simp [h]
    · simp [h, Ne.symm h]

theorem mem_collect {pairs : List (String × String)} {name : String} :
    name ∈ collect pairs ↔ (pairs.reverse.find? fun p => p.1 = name).isSome := by
  rw [HashMap.mem_iff, ← Option.isSome_iff_exists, get?_collect, Option.isSome_map]

theorem withRecord_of_params {name id : String} {bytes : List Byte} {handling : String → List Byte → Handling x}
    (hid : params.get? "uniqueid" = some id) (hbytes : params.get? name = some (hexEncode bytes)) :
    Config.withRecord params name handling = some (handling id bytes) := by
  simp [Config.withRecord, hid, hbytes, hexDecode_hexEncode]

theorem getServerCert_of_params {id : String} {pem : x.Pem} {clientCert salt : List Byte}
    (hphrase : params.get? "phrase" = some "getservercert") (hid : params.get? "uniqueid" = some id)
    (hcert : params.get? "clientcert" = some (hexEncode clientCert)) (hpem : server.fromUtf8 clientCert = some pem)
    (hsalt : params.get? "salt" = some (hexEncode salt)) (hlength : salt.length = 16) :
    server.handlePairRequest params draws = .getServerCert id pem salt := by
  simp [Config.handlePairRequest, hphrase, Config.getServerCert, hid, hcert, hpem, hsalt, hexDecode_hexEncode,
    hlength]

theorem clientChallenge_of_params {id : String} {challenge : List Byte}
    (hid : params.get? "uniqueid" = some id) (hphrase : params.get? "phrase" = none)
    (hbytes : params.get? "clientchallenge" = some (hexEncode challenge)) :
    server.handlePairRequest params draws =
      .pairing id (.clientChallenge challenge draws.serverSecret draws.serverChallenge) := by
  rw [Config.handlePairRequest, hphrase]
  simp [HashMap.mem_of_get? hbytes, Config.clientChallenge, withRecord_of_params hid hbytes]

theorem serverChallengeResponse_of_params {id : String} {response : List Byte}
    (hid : params.get? "uniqueid" = some id) (hphrase : params.get? "phrase" = none)
    (hchallenge : "clientchallenge" ∉ params)
    (hbytes : params.get? "serverchallengeresp" = some (hexEncode response)) :
    server.handlePairRequest params draws = .pairing id (.serverChallengeResponse response) := by
  rw [Config.handlePairRequest, hphrase]
  simp [hchallenge, HashMap.mem_of_get? hbytes, Config.serverChallengeResponse, withRecord_of_params hid hbytes]

theorem clientPairingSecret_of_params {id : String} {clientSecret : List Byte}
    (hid : params.get? "uniqueid" = some id) (hphrase : params.get? "phrase" = none)
    (hchallenge : "clientchallenge" ∉ params) (hresponse : "serverchallengeresp" ∉ params)
    (hbytes : params.get? "clientpairingsecret" = some (hexEncode clientSecret)) :
    server.handlePairRequest params draws = .clientPairingSecret id clientSecret := by
  rw [Config.handlePairRequest, hphrase]
  simp [hchallenge, hresponse, HashMap.mem_of_get? hbytes, Config.clientPairingSecret,
    withRecord_of_params hid hbytes]

/-- Either listener serves `/pair`. -/
theorem serve_pair {request : Request} (henabled : server.enablePairing)
    (hroute : (request.method, request.path) = (.get, "/pair")) (data : StateData) :
    server.serve data request draws = server.handlePairRequest (server.params request) draws := by
  rw [Config.serve]
  split
  · rw [Config.serveHttps, hroute, if_neg (by decide), if_neg (by decide), if_neg (by decide), if_pos rfl,
      Config.ifPairing, if_pos henabled]
  · rw [Config.serveHttp, hroute, if_neg (by decide), if_pos rfl, Config.ifPairing, if_pos henabled]

end Moonshine.Proof.Server
