import RequestSigning.CommandLine.Outcome
import RequestSigning.Credential.SharedRetriever
import RequestSigning.Main
import RequestSigning.Proofs.Signing.Names
import RequestSigning.Proofs.Text.Base64
import RequestSigning.Proofs.Text.Utf8
import RequestSigning.Proofs.Signing.Canonical
import RequestSigning.Proofs.Bytes
import RequestSigning.Proofs.Rsa.Signature
import RequestSigning.Proofs.Http.Request
import RequestSigning.Proofs.Signing.Authorization
import RequestSigning.Proofs.Signing.Signer
import RequestSigning.Proofs.Signing.Verification
import RequestSigning.Proofs.Run
import RequestSigning.Proofs.Credential.Loading
import RequestSigning.Proofs.Credential.PemRetriever
import RequestSigning.Proofs.Credential.RefreshStage
import RequestSigning.Proofs.Credential.SharedRetriever
import RequestSigning.Proofs.Signing.Reading
import RequestSigning.Proofs.Http.Header
import RequestSigning.Proofs.Signing.Repetition
import RequestSigning.Proofs.Except
import RequestSigning.Proofs.Http.Uri
import RequestSigning.Proofs.CommandLine.SignedRequest
import RequestSigning.Proofs.CommandLine.Options
import RequestSigning.Proofs.Signing.Effect
import RequestSigning.Proofs.CommandLine.Outcome
import RequestSigning.Proofs.Cipher.Cbc
import RequestSigning.Proofs.Cipher.Des
import RequestSigning.Proofs.Cipher.Aes
import RequestSigning.Proofs.Text.Hex
import RequestSigning.Proofs.Pem
import RequestSigning.Proofs.Credential.LegacyEncryption
import RequestSigning.Proofs.Rsa.Completeness
import RequestSigning.Proofs.Rsa.Primality
import RequestSigning.Proofs.Signing.Success
import RequestSigning.Proofs.Rsa.Smallest
import RequestSigning.Proofs.Http.Body
import RequestSigning.Proofs.Signing.Failure
import RequestSigning.Proofs.Credential.Refresh
import RequestSigning.Proofs.Http.Essentials
import RequestSigning.Proofs.Signing.Noninterference
import RequestSigning.Proofs.Credential.Provider
import RequestSigning.Proofs.Credential.Certified
import RequestSigning.Signing.SharedSigning
import RequestSigning.Proofs.Signing.SharedSigning
import RequestSigning.Proofs.Text.Decoding
import RequestSigning.Proofs.Signing.BodyDigest
import RequestSigning.Proofs.Signing.Binding
import RequestSigning.Proofs.Signing.Target
import RequestSigning.Proofs.Signing.HeaderLine
import RequestSigning.Proofs.Der.Element
import RequestSigning.Proofs.Der.Reader
import RequestSigning.Proofs.Der.Value
import RequestSigning.Proofs.Der.Time
import RequestSigning.Proofs.Certificate.Name
import RequestSigning.Proofs.Certificate.Extension
import RequestSigning.Proofs.Certificate.Body
import RequestSigning.Proofs.Certificate
import RequestSigning.Proofs.Pem.FirstBlock
import RequestSigning.Proofs.Credential.CertificateEncoding
import RequestSigning.Proofs.Credential.FirstBlock
import RequestSigning.Proofs.Credential.PlainKey
import RequestSigning.Proofs.Signing.AcceptedKey
import RequestSigning.Proofs.Credential.LegacyDecryption
