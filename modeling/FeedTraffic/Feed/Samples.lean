import FeedTraffic.Random.Range
import FeedTraffic.Text.Hex

/-!
# Sample identifiers

The public keys and post identifiers that requests are filled with.  The built-in set names
accounts and posts of the shared staging data; one account is listed twice and is picked twice as
often.
-/

namespace FeedTraffic.Feed

open FeedTraffic.Random

structure Samples where
  /-- Used as requesters and as users that are asked about. -/
  pubkeys : List String
  postIds : List String
  /-- The post to look up while a session knows none. -/
  fallbackPostId : String
  deriving DecidableEq, Repr

namespace Samples

def default : Samples where
  pubkeys :=
    ["02218b3732df2353978154ec5323b745bce9520a5ed506a96de4f4e3dad20dc44f",
     "033d01709a02bf78f95e09cd00ba93ad8fb7c8ac11e6d3f871a11062eeb2aa8cd8",
     "03f56f6ad1c1166e330fb2897ae60afcb25afa10006212cfee24264c04d21bce60",
     "03feff5d6e0d399a189ade44901c5f9b5bd959e6e2b82020446b78eae06732f21a",
     "02d22b4947724fa545681aa8281db260c1fbb081a6a53d8b4233c1be9f0bae4506",
     "028e6cb879cadeea0acef3fa34cd456ac5b12d533b6e42e8965804bc5506f0863e",
     "03b1f9ed63976b28ad4e648b9da672679bd27895def79159f372eeea30df45abf7",
     "028e6cb879cadeea0acef3fa34cd456ac5b12d533b6e42e8965804bc5506f0863e"]
  postIds :=
    ["63e35ea479377d8cb36165f12dbaeb8b9c35a6b20e4c411254cfb910b570a48f",
     "ac0c73cf661259a3af663914e5d52f608a8430b47d9173164838d5198ae8d5d8",
     "baf60e2b8ef9027204ef8d1157b0908881a9deb5e8ad54d3de4ba9988f5f2fc3",
     "a44ca44bd09d54a6e6cc5919aca6e68cd7645498826e9c7bda92f824591d1495",
     "b3d26a66b57504ada5847bb635c639f3ecd734bc4deccaed0e64d75b8bae1c04",
     "794148d047ca5ef8729aea6aea0adda8d3eddbd593e01420d9930b4f9918d709",
     "f05e5f02ff1e27fd44a160801c5e4c81b8e198e8fcefaedac2e396451646e889",
     "9dc6942b6a3c880b49379b8bdbea1d8d68ec7bf8b6b3f941e9b86ffa2fd82d5e",
     "361013d8b5debb512b599615ad3739e8058d1b838ce71cec9bf1c0afadf32929",
     "fb44c8e5a5e14ee43c336e0d4ffe51bc64e883185fb83e5c1fe74dd305e6754a",
     "d79efc9b9aef2c93a030dbb53177fa5ab674cd29c1483335ff768524aad9e5cb",
     "78be2e16605ee6cd4f6903088d9e32936faa2655952a671475a940a2b7263fd3",
     "e710db11e2eff2a2ceeac00a085988278aaa646843c3582b6a73c18485477bb8",
     "602631308c97ba35f76d286ba69c34b580665cb83b5c5a35dc3f9f4c0a41b31c"]
  fallbackPostId := "63e35ea479377d8cb36165f12dbaeb8b9c35a6b20e4c411254cfb910b570a48f"

/-- A public key, each entry of the list as likely as any other; empty if there is none. -/
def randomPubkey (s : Samples) : Draw String := do
  let picked ← pick? s.pubkeys
  pure (picked.getD "")

/-- A post identifier, each entry of the list as likely as any other; empty if there is none. -/
def randomPostId (s : Samples) : Draw String := do
  let picked ← pick? s.postIds
  pure (picked.getD "")

def firstPubkey (s : Samples) : String := s.pubkeys.headD ""

inductive Fault where
  | noPubkeys
  | noPostIds
  | notHex (id : String)
  deriving DecidableEq, Repr

def Fault.message : Fault → String
  | .noPubkeys => "samples.pubkeys must not be empty"
  | .noPostIds => "samples.post_ids must not be empty"
  | .notHex id => "sample identifier `" ++ id ++ "` is not a hex string"

/-- A hexadecimal text of any length but zero. -/
def isHex (s : String) : Bool := !s.isEmpty && s.toList.all Text.Hex.isDigit

/-- All identifiers in the order in which they are checked. -/
def identifiers (s : Samples) : List String := s.pubkeys ++ s.postIds ++ [s.fallbackPostId]

/-- Both lists have entries, and every identifier is hexadecimal.  The first fault counts. -/
def validate (s : Samples) : Except Fault Unit :=
  if s.pubkeys.isEmpty then .error .noPubkeys
  else if s.postIds.isEmpty then .error .noPostIds
  else match s.identifiers.find? (!isHex ·) with
    | some id => .error (.notHex id)
    | none => .ok ()

end Samples

/-- The samples that all virtual users of a process share.  The first set put in stays. -/
structure SampleStore where
  installed : Option Samples := none
  deriving DecidableEq, Repr

namespace SampleStore

/-- Puts a set in, unless there is one already, and tells whether the store now holds that set. -/
def install (samples : Samples) (store : SampleStore) : Bool × SampleStore :=
  match store.installed with
  | some kept => (kept == samples, store)
  | none => (true, ⟨some samples⟩)

/-- The shared set; the built-in one is put in if there is none yet. -/
def get (store : SampleStore) : Samples × SampleStore :=
  match store.installed with
  | some kept => (kept, store)
  | none => (.default, ⟨some .default⟩)

/-- The set that users of a store see. -/
def view (store : SampleStore) : Samples := store.installed.getD .default

theorem get_eq (store : SampleStore) : store.get = (store.view, ⟨some store.view⟩) := by
  obtain ⟨_ | kept⟩ := store <;> rfl

theorem install_fst (samples : Samples) (store : SampleStore) :
    (store.install samples).1 = decide ((store.install samples).2.view = samples) := by
  obtain ⟨_ | kept⟩ := store
  · simp [install, view]
  · by_cases h : kept = samples <;> simp [install, view, h]

/-- What was put in first stays. -/
theorem install_snd (samples : Samples) (store : SampleStore) :
    (store.install samples).2 = ⟨some (store.installed.getD samples)⟩ := by
  obtain ⟨_ | kept⟩ := store <;> rfl

theorem install_snd_eq_iff (samples : Samples) (store : SampleStore) :
    (store.install samples).2 = store ↔ store.installed ≠ none := by
  obtain ⟨_ | kept⟩ := store <;> simp [install]

end SampleStore

end FeedTraffic.Feed
