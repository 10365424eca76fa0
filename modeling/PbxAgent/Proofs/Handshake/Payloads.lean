import PbxAgent.Handshake
import PbxAgent.Proofs.Json.Members

/-!
# Records that commands bring

Any text can be brought as a password, as a challenge, as a seed or as an enciphered password: the object
that says it is read as it was written.
-/

namespace PbxAgent.Handshake

open Schema (Decoder Member)
open Json (Reads Written reads_text reads_record)

/-- The object of one text is read by a record of that one member. -/
theorem payload_text (title name s : String) :
    payload (.record title "" [{ name := name, read := Decoder.text.map fun s _ => s }])
      (Json.Value.object [(name, .string s)]).bytes = .ok s := by
  let member : Member Decoder String :=
    { name := name, read := Decoder.text.map fun s _ => s }
  have found : [member].find? (·.answersTo name) = some member := by
    simp [Member.answersTo, member]
  let written : List (Written [member]) :=
    [⟨member, name, .string s, _, found, (reads_text s).map _⟩]
  have names : written.map (·.member.name) = [name] := rfl
  have hreads : Reads (Decoder.record title "" [member]).json (.object [(name, .string s)]) s :=
    reads_record written names (by simp) (by simp [member])
  rw [payload, Json.parse_bytes hreads]
  rfl

theorem payload_password (password : String) :
    payload passwordDecoder (Json.Value.object [("password", .string password)]).bytes
      = .ok password :=
  payload_text "PasswordPayload" "password" password

theorem payload_challenge (challenge : String) :
    payload challengeDecoder (Json.Value.object [("challenge", .string challenge)]).bytes
      = .ok challenge :=
  payload_text "ChallengePayload" "challenge" challenge

theorem payload_rotation (seed pwd : String) :
    payload rotationDecoder
      (Json.Value.object [("seed", .string seed), ("pwd", .string pwd)]).bytes = .ok ⟨seed, pwd⟩ := by
  let seedMember : Member Decoder Rotation :=
    { name := "seed", read := Decoder.text.map fun s r => { r with seed := s } }
  let pwdMember : Member Decoder Rotation :=
    { name := "pwd", read := Decoder.text.map fun s r => { r with pwd := s } }
  let written : List (Written [seedMember, pwdMember]) :=
    [⟨seedMember, "seed", .string seed, _, rfl, (reads_text seed).map _⟩,
      ⟨pwdMember, "pwd", .string pwd, _, rfl, (reads_text pwd).map _⟩]
  have names : written.map (·.member.name) = ["seed", "pwd"] := rfl
  have hreads : Reads rotationDecoder.json
      (.object [("seed", .string seed), ("pwd", .string pwd)]) ⟨seed, pwd⟩ :=
    reads_record written names (by decide) (by decide)
  rw [payload, Json.parse_bytes hreads]
  rfl

end PbxAgent.Handshake
