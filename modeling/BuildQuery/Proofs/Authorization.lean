import BuildQuery.Proofs.Base64Reading
import BuildQuery.Proofs.Encoding
import BuildQuery.Remote.Credentials
import BuildQuery.Text.Search

/-!
# BuildQuery — what a request tells of its credentials

A request carries the bytes of the name, a colon and the secret in base 64. The bytes are read back from
the characters, and the text from the bytes, so credentials are told apart as far as the joined text tells
them apart. The joined text tells where the name ends if no name has a colon; otherwise a colon of the
name may as well belong to the secret.

Main results:

* `Credentials.decode?_authorization` — what is read back from a request.
* `Credentials.joined_eq_iff` — when joined texts are equal.
* `Credentials.authorization_lossless` — which credentials a request carries.
-/

namespace BuildQuery

namespace Text

/-- Texts are told apart by their bytes. -/
theorem bytes_inj {s t : String} : bytes s = bytes t ↔ s = t := by
  constructor
  · intro h
    have hText := congrArg ofBytes? h
    rw [ofBytes?_bytes, ofBytes?_bytes] at hText
    exact Option.some.inj hText
  · intro h
    rw [h]

end Text

namespace Remote.Credentials

open Text

/-- The text that is carried: the name, a colon and the secret. -/
def joined (c : Credentials) : String :=
  c.username ++ ":" ++ c.password

/-- What is read back from a request: the bytes of the joined text. -/
theorem decode?_authorization (c : Credentials) : ∃ code, c.authorization = "Basic " ++ code ∧
    Base64.decode? code.toList = some (bytes c.joined) := by
  refine ⟨String.ofList (Base64.encode (bytes c.joined)), rfl, ?_⟩
  rw [String.toList_ofList, Base64.decode?_encode]

/-- Requests carry the same just when the joined texts are the same. -/
theorem authorization_eq_iff (c d : Credentials) :
    c.authorization = d.authorization ↔ c.joined = d.joined := by
  obtain ⟨code, hCode, hDecode⟩ := decode?_authorization c
  obtain ⟨other, hOther, hDecode'⟩ := decode?_authorization d
  constructor
  · intro h
    rw [hCode, hOther, String.append_right_inj] at h
    rw [h, hDecode', Option.some.injEq, bytes_inj] at hDecode
    exact hDecode.symm
  · intro h
    rw [authorization, authorization]
    exact congrArg (fun s => "Basic " ++ String.ofList (Base64.encode (bytes s))) h

/-- The first colon of a joined text ends the name. -/
theorem joined_eq_iff {c d : Credentials} (hc : ':' ∉ c.username.toList) (hd : ':' ∉ d.username.toList) :
    c.joined = d.joined ↔ c = d := by
  have hChars (e : Credentials) : e.joined.toList = e.username.toList ++ ':' :: e.password.toList := by
    rw [joined, String.toList_append, String.toList_append, List.append_assoc]
    rfl
  constructor
  · intro h
    have hJoined := congrArg String.toList h
    -- cut at its colons, the first piece of each text is the name
    have hPieces := congrArg (pieces ':') hJoined
    rw [hChars, hChars, pieces_append_mark hc, pieces_append_mark hd] at hPieces
    have hName := (List.cons.inj hPieces).1
    rw [hChars, hChars, hName, List.append_right_inj] at hJoined
    have hSecret := (List.cons.inj hJoined).2
    rw [String.toList_inj] at hName hSecret
    obtain ⟨name, secret⟩ := c
    obtain ⟨name', secret'⟩ := d
    cases hName
    cases hSecret
    rfl
  · intro h
    rw [h]

/-- **Which credentials a request carries.** What it carries behind the word is read back as the bytes of
the name, a colon and the secret. So two requests carry the same just when these joined texts are equal,
and for names without a colon just when the credentials are equal. -/
theorem authorization_lossless (c : Credentials) :
    (∃ code, c.authorization = "Basic " ++ code ∧
      Base64.decode? code.toList = some (bytes (c.username ++ ":" ++ c.password))) ∧
      ∀ d : Credentials,
        (c.authorization = d.authorization ↔
          c.username ++ ":" ++ c.password = d.username ++ ":" ++ d.password) ∧
        (':' ∉ c.username.toList → ':' ∉ d.username.toList →
          (c.authorization = d.authorization ↔ c = d)) := by
  refine ⟨decode?_authorization c, fun d => ⟨authorization_eq_iff c d, fun hc hd => ?_⟩⟩
  rw [authorization_eq_iff, joined_eq_iff hc hd]

/-- A colon in the secret and one in the name. -/
theorem authorization_lossless_colons :
    let c : Credentials := ⟨"a", "b:c"⟩
    let d : Credentials := ⟨"a:b", "c"⟩
    let e : Credentials := ⟨"b", "b:c"⟩
    (':' ∉ c.username.toList ∧ ':' ∉ e.username.toList) ∧ c.authorization = "Basic YTpiOmM=" ∧
      c.authorization = d.authorization ∧ c.authorization ≠ e.authorization := by
  intro c d e
  have hNames : ':' ∉ c.username.toList ∧ ':' ∉ e.username.toList := by decide
  have hLossless := (authorization_lossless c).2
  refine ⟨hNames, by decide +kernel, (hLossless d).1.mpr rfl, ?_⟩
  rw [ne_eq, (hLossless e).2 hNames.1 hNames.2]
  decide

end Remote.Credentials

end BuildQuery
