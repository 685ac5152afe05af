import SecureElement.Octets.Hex
import SecureElement.Octets.Base64
import SecureElement.Octets.Utf8
import SecureElement.Text.Blank
import SecureElement.Text.Search
import SecureElement.Text.Decimal
import SecureElement.Text.Quoted
import SecureElement.Time.Duration
import SecureElement.Time.Calendar
import SecureElement.Pem
import SecureElement.Der
import SecureElement.Der.Integer
import SecureElement.Der.BitString
import SecureElement.Der.ObjectId
import SecureElement.Der.SetOf
import SecureElement.X509.Certificate
import SecureElement.X509.Request
import SecureElement.Crypto.Sha256
import SecureElement.Crypto.Sha512
import SecureElement.Crypto.Hmac
import SecureElement.Crypto.Scrypt
import SecureElement.Crypto.Aes
import SecureElement.Crypto.Ecdsa
import SecureElement.Key.Ec
import SecureElement.Key.Info
import SecureElement.Key.Encrypted
import SecureElement.Authority.Issue
import SecureElement.Definition.Wire
import SecureElement.Link.Exchange
import SecureElement.Link.SerialLine
import SecureElement.Link.OpenLine
import SecureElement.Chip.Kind
import SecureElement.Chip.Report
import SecureElement.Manifest.Entry
import SecureElement.Toml.Document
import SecureElement.Settings.File
import SecureElement.Provisioning.Run
import SecureElement.CommandLine.Program
import SecureElement.Main
import SecureElement.Bench.World
import SecureElement.Bench.Port
import SecureElement.Bench.Authority
import SecureElement.Proofs.Octets.Ascii
import SecureElement.Proofs.Octets.Base64
import SecureElement.Proofs.Octets.Hex
import SecureElement.Proofs.Octets.Numbers
import SecureElement.Proofs.Octets.Trim
import SecureElement.Proofs.Octets.Utf8
import SecureElement.Proofs.Pem.Boundaries
import SecureElement.Proofs.Pem.Encode
import SecureElement.Proofs.Pem.Trim
import SecureElement.Proofs.Der.Elements
import SecureElement.Proofs.Der.TwosComplement
import SecureElement.Proofs.Der.Values
import SecureElement.Proofs.X509.Certificates
import SecureElement.Proofs.X509.DateForms
import SecureElement.Proofs.X509.Fields
import SecureElement.Proofs.X509.Names
import SecureElement.Proofs.X509.Requests
import SecureElement.Proofs.X509.Times
import SecureElement.Proofs.Text.Decimal
import SecureElement.Proofs.Text.Patterns
import SecureElement.Proofs.Time.Calendar
import SecureElement.Proofs.Time.Hours
import SecureElement.Proofs.Time.Seconds
import SecureElement.Proofs.Time.Years
import SecureElement.Proofs.Authority.Agreement
import SecureElement.Proofs.Authority.Demands
import SecureElement.Proofs.Authority.Describing
import SecureElement.Proofs.Authority.DeviceRequests
import SecureElement.Proofs.Authority.Issuing
import SecureElement.Proofs.Authority.Lengths
import SecureElement.Proofs.Authority.Periods
import SecureElement.Proofs.Authority.PrivateKeys
import SecureElement.Proofs.Authority.ReadBack
import SecureElement.Proofs.Authority.SameCertificate
import SecureElement.Proofs.Authority.SelfSignature
import SecureElement.Proofs.Authority.Serials
import SecureElement.Proofs.Authority.SerialTexts
import SecureElement.Proofs.Authority.Signatures
import SecureElement.Proofs.Authority.Texts
import SecureElement.Proofs.Bench.Answers
import SecureElement.Proofs.Bench.FileTrees
import SecureElement.Proofs.Bench.Sessions
import SecureElement.Proofs.Chip.Reports
import SecureElement.Proofs.Chip.RequestBlocks
import SecureElement.Proofs.Chip.SerialNumbers
import SecureElement.Proofs.Chip.ToldLengths
import SecureElement.Proofs.CommandLine.Locking
import SecureElement.Proofs.CommandLine.Switches
import SecureElement.Proofs.Crypto.Curve
import SecureElement.Proofs.Crypto.Encodings
import SecureElement.Proofs.Crypto.Fields
import SecureElement.Proofs.Crypto.Primality
import SecureElement.Proofs.Crypto.Signing
import SecureElement.Proofs.Definition.Acceptance
import SecureElement.Proofs.Definition.Describable
import SecureElement.Proofs.Definition.Guarded
import SecureElement.Proofs.Definition.KeyIds
import SecureElement.Proofs.Definition.Layout
import SecureElement.Proofs.Definition.Located
import SecureElement.Proofs.Definition.Spots
import SecureElement.Proofs.Definition.Tilings
import SecureElement.Proofs.Definition.Wire
import SecureElement.Proofs.Definition.WireLines
import SecureElement.Proofs.Key.Ec
import SecureElement.Proofs.Link.Deadlines
import SecureElement.Proofs.Link.Exchanges
import SecureElement.Proofs.Link.Legible
import SecureElement.Proofs.Link.Lines
import SecureElement.Proofs.Link.LineStream
import SecureElement.Proofs.Link.Listening
import SecureElement.Proofs.Link.Paces
import SecureElement.Proofs.Link.Paths
import SecureElement.Proofs.Link.Pieces
import SecureElement.Proofs.Link.Readiness
import SecureElement.Proofs.Link.Standings
import SecureElement.Proofs.Link.Timing
import SecureElement.Proofs.Lists.Cuts
import SecureElement.Proofs.Manifest.Entries
import SecureElement.Proofs.Manifest.Reading
import SecureElement.Proofs.Provisioning.Checking
import SecureElement.Proofs.Provisioning.CommandOrder
import SecureElement.Proofs.Provisioning.Footprint
import SecureElement.Proofs.Provisioning.History
import SecureElement.Proofs.Provisioning.LateRefusal
import SecureElement.Proofs.Provisioning.Locking
import SecureElement.Proofs.Provisioning.Origins
import SecureElement.Proofs.Provisioning.OwnCertificate
import SecureElement.Proofs.Provisioning.Payloads
import SecureElement.Proofs.Provisioning.Preparations
import SecureElement.Proofs.Provisioning.Recording
import SecureElement.Proofs.Provisioning.Savings
import SecureElement.Proofs.Provisioning.Stages
import SecureElement.Proofs.Settings.LockSlots
import SecureElement.Proofs.Toml.Keys
