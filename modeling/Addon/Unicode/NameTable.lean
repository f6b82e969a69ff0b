/-!
# Character names

The names and name aliases of Unicode 14, enumerated in steps that are packed. Names that end in
their own code point are not listed, because they are computed.
-/

namespace Addon.Unicode

/-- How many steps there are. -/
def nameStepCount : Nat := 313525

/-- The packed steps. -/
def nameText : String := "
l43R)a@1uFk$0aXx;9ZS&xuy<C:nWLnr<=M&BE^VWF~J*bsu!*5E1cdMKYpMSa>WM[vhNrs!(b9FK0?et+Z<&uRn,^$kXO<rsV>3
O?m>k70+0~N0_PM%ONK_W,Ldou3c.8ClvsKQp1xsGgA1z8o&%|<gfQ~n0E1d&CoQ$kMBB_3Dugw>XkpmKO=_&UIC*a7_HF2h2XW]
S9[<DIi=amv(|_G8M9hc!)>t!_N1;54dA:&RWuro|u62%:@?m(VHZ6UwpVWQO]YVXQT4O!maX)XN?QaXRtt&PH2Zh.&?u(3ud.|A
H[F6LIHtXjiiUjA|Qfs*P|POIb5qH%&3q&V7tchG^Zau4r0PA86SnUZnv^dhwMqnbu[igi9WF%+s;=nBL&R9e<;ySmSJEM=3GeOm
X+^,l7OsFG09r)tgKUD+xL<GXMkPX+NEA!tHfTXPl$S;oRjG7p=tA3Gd98r|F<@Ui^~+,An)d0kL.TxyGpWT,[)vJKdR+%%*K+]r
ND.(<65.+BeS539K9@vit]q4q)CJKu(|asXKh7xC&EXJxh<0N^awHHr,Wo1g$2xbkCGs@DQGQ,E]ml%M!PE3OY+3_s?w@dPTJMnD
Ds!l]5PHF&%19Vws^)>:tNST%qw8aR+R|KuPl!Azl(i)|)%h<g,1][N0@a@%0Fn&*|KxZkQx+k_DWo!@C[z^ra*jl,.mq~.^n)6u
>+KUKY_&g+yuP$L8h_.4fH7uy5tAVppUqA,i$+vw?3hRg0WXzUdm@.)9*+F;33(8W%>?&~v:.>.1YQ*:P0J>*^8S@I2x5txv]z!8
Of5QrBCcvx+F4r>Lq2D[o|jI!|B6ry?!f,<RXmKHrPmMPD!Q0B~dn%HpsE4M%APw$I6be%zmaL>.NU^RFO.=FY&BPPZ8Q8dX+k_c
d;eq)0KoDr3Zco0OqTm%KKbHOTVv.P:llFmNu6s0fTXOBN1QaI2N^JoEDtx[QgYg%,S^~u<u5+SthLF*YA3oBVstZ8V$W@.:Qfz>
YXvnLlOaej8)5phSV8qHinZ=Q0Ww3E~h@QU*x^E@r&f9nUkB5[eFEhm,5g9;qy1Iq<x9OY1~J?ovKp0FeW);j8=!vsOg;ngN69fc
Q?bCd7wB.dp.>M+bRD9,z$9^sgst.9lD=8aj^^eZ(1Hmc$XPZ[me~dUFghS=pcy@$Q1z8sh;7Q42yJqGx;W,dvA:p,dxs+Zu=sPo
)y&zrPl8hrpq0+)YpALHvq*y6b&qO|sO^xiw!I0<Px@z]TuPP2x)4hifCkp(YBN)Vf;1hfBt%srVL%Qy(_m!;zLDM;2gyI<^_$aV
W?rbb<~O0UcCbe3LTroT4du!1i^uI.&sb@I,o?3usz)Ab?fYm@Yb=Cl?+a[~l)umjUHoxM6Cc*d%pw%0;(HPF^s^MV6ud_!Z.:6:
*I5$+&9&hL8SbRDrysWmZ9a:T>1UsS+H3lu(G^7)WfL1%e4aY0[mBiS%ouVI;e9!IPs(|7%b_]>>H=@xy0v3mAPgf$@cMTi3OTO|
mVA*I~eqgv9w3T:qmxcc+8v?FbQnyNYa?az1$2i^@0SLYkIc%fzuz43rE&ivqazgVm.Tm6wF]X<9A<fNivyW(I(;Z!I>DtnK9POb
,n<y<1^~W5J2(Nj<)BaZxTMf:ZOE6.|5zBV.<9K;38?Vt:~_c3|O<dYFhWcMG5R?z8EM9]gcIciJh($mq&aDfxF97j=(o=r?tMGf
E~|@D+38ANOD]teYykVfppZ;NQN:GTuL2~]2.uah>&%W8@8z7[<4Jm6:iK;1r%)|fmV<H+[tw0VFcc9*hP@y$4MfutP,)t,nGwiU
jr.bb<(Rjx%n?$7sHs?p2)%6Y9p_>=1,Ar+=aEBL~?UXd)];fet^f7lHE+c8EP4uXhOAwVN?bz%cl%;1uZqb@KOrj22Umjy@(jzl
v~gx:u<AJcOZOB9@lTrJw:X!:9hj%~:P!kHr^g[bBH6X!%*>.1dh2UDa,7bj4V5IGl;n*!B(J812?vk0yfN4^!w+7V%PNI>TkRwZ
TJ)k.V,S<!:(r6N,H|TqniWiWStT.FItU2Y>t.=]2e=7)),J7Sjj4&uUZOb6,2qutXc[HnjrONsBZr|d+_|^V5[?kwv^Uk2DiHm*
:mj.c8^n4mOji=m3:AzkcoC(aqMw4FhkAIPX!?fG3c>k*j3)pK8?6[S;8?gWi3;Y~T+E2Yd@>@*53H,0MMup!YR7LqcvlR2(J[CI
o|9=7z;O=P%qC7ax=[hW[_nJcGoQE6s0>s~nHrcwP~_?Wh2z12y0ffUXQco(WWfz.F03;fbkTynZCHT<A)wV$p&?$5ZM:(&?I07M
(Z>CltVM?=52@V=!M@Yx:E6(o28SaHVzqiV19W%B[ihQBsY<:Y3;N,hUU.mHf;LuB[E!a4ER=2qYy|%Wd[p[@]r?!mJAvn?e_[EJ
8a43N.DB[yCx5^iTQhfEa97AE&a8PnxNF83YOktU>*DhfjoR7Tc:Ruv.uBn<[Q*44(YR5KTr,[7I6x&ITGj1p<ZInHLMp<li^&nX
.~UX?7c=a=aJE,8?|tNGto^5[xM,h>ZK,mXWcha>YpHM:XG]n((Rt1LKD:*ao2=mGi9mTCgSZ(*cbdUdi8Mz~%$75O+!QN[Gkx;O
%%V03^(J.piandD9bmkD&;MS|[[)pn+2ll*gU|~h@|wmf=dEaY$K_|@n87x,pURiTVK2_m0J@&Yf|dmY]_nE1s;t^vg&YT1t!iI6
^x!)~&OcHx=GNlQ5[4Ln8D(ivLbed(jy5w1[?r3&GymjO^$by.!9V%ofm*t^GGo8%?ZOv%SOiN9TpBm8F^w?lEB[SQ~5ZlZE7pNX
_WHLHkML8=qMnZh7$3NpsPD!9CP7&M6+]Q?zluRu>09RzDnNfED@Ao5172q8ZuxYaq6GJ^st.x<pUz,s93W1=]k5&Mk3Mo,2&i7=
q6k&j!>:[d$7+vvH.bZzBL+>;r_O)SPDOt01ixK]0omNgrN28vZyY20:j9;[w%!*7s9k5,VFBiOcqozn]5REeLZ:aAsnM.9=.;l)
0kOo(2,OsD~)s?+e&v]^.XO;zj|@(bHiCR@l!Slhe;(u!QV_i$J)jkJk~6VW4)qq$l0c66&tSCX?H5.QaImlT%YO%nL:(*|@rI5m
i((euSSY~88gL1zwygyI(h)M=vU)VL6bk+gC(s,gcs~FEp;Uza=mpBFItO;8wp<?9WzrrFygXXuwT|@p[sFSM.Mfj~AmvEXeA@J!
Sx,IWEb5X.|PaB.wpSVc2y@RxUMU0VSC(p[nUtfvzU=@ezCq3mMyx,!vwvGqLMquD;p<hQIVr$n>3?$7:R6Is1mQ1RM8(WOwJ)SP
*tlE@%N7KC%hSlwJ,oISki@:r$FAO)WR%zV1u:|sc8.kQHsXE^:q1]3+B7o6.1w2m8=rct[EU=*)b~Tmc5vH^)dDG0@46.x.|Y~E
p!eD4_E9QgGnn389iHjlmLWv[G61lE|nE)Kuhle0]rfSp>I%xc86FHUVOOLu(qXlTK15+iOqX3c>J9U18=:&WR_hF@1Prj%<vD*M
;]gk%:xab2no07@puBZqac]B?;<z]tJ6ZfWkr;Amp7:U@DydrK3P:HyCaplD2eLHqmMkb$0Ij,n5c=M195k4HB?]MN81v(j7GqZn
NgE>otCgp|rFAX!hSeoOlTYUC)P)3vWWz7&U<COXPDC7(Q<~:Qf*28mvIGX>UBJAB;O+Usuq@;Mv0R;E@GZlq<yL2zvVa04e*ZzP
zzm45&v!)FZnL(Y^jM2|zLE,4dHUe;9,K%J:+!jR,S3zuUaPHNj3q$3RGe@qSk:z^$|)diB|K9KlYIeU+LjLDAUu3F=&pny^foq$
+2tnMc&8LrNpYUYEzb.=v,Xe$|kAv2>v3I38[<N05&T(&oN5CV+HO%K1j53V<3BPI7_X$,1:vbKo;t7SsB?%.f$5[1?T4t>(E,Xj
=2.>^<h^9:tguaAouvx@rh=k0a.2vtC)gjQXM]l?3w]$%>_t,dDSEcT.=$B6LPnVRC:_~OD&(a?;vd4&Nqj)GKlI9,>b8JS5$G)R
!86%)D9+qk6&EdzOP0h21Q|@!<a)D7l:!2C,iQTD2RbDQ+l[_7k7r+pgVN=x_CThuV(O|x,([]mpYim)oaLG$>]~D&wBNT&6C?s[
*JC0nq0$NAg,3xbb,>GmS6cNqXJ$_8w4voo)_IW*qtH8^<jHZSbbv(c4^9YeZEhe7XDn.$4;)B77L)XN%;XotY?5MzaxhK.PVGVU
[96u1d4vg@r$2&hNCkuQ652HVY]]&|Rq)9ra6RR520GgKh7wvtAm(mgNXs!kH59l|XPf?owDMS*mi2fM|sO)zo!=u=5lLOSK&EtM
[_geFDY,cNdM?m>+[!sqi<$8C4SDkJ5Vn]PJo,M!Z_LaI]Aky.U3x^lE!XylU:KaEle9_aqj&%_1pm1?^EMF%$TNNBid>j9[BP95
&q=LhJ!l<F!7|O1%C<W:.B8&(%gJjtXmcTLBNeB[FvL0mRztu,ThmzOJDS_V[iXT|YE3fVvXv&NR![AN~J_si[L7jRQhs5HllALX
swidX$]Y11<mHai(s*FLX)Gz%1Pt<bc<[e?^py0Q)htOaSU3zk;e1ZkASM5,R$VNj]t,cFD.~v8@YQBLO=KCYi;x5T?PjHI8ygHI
w[:UE=Xq.u8w0_hvFQJMyI.1_bBO0~$;p4M@^L~YbR<Qh=7=(L9c0N5b,^mrG.$,bB;pM$FtL6C04R%BtnKp^Utr~@(r<XHxU*Ce
;$n%KRZbJwlh++>vLYf%gheAYp.Z]&efKjv9sv+7AHI3ep@AfYve<=&w(UZn%J[c8x8H6QbB2Y&A5XyppqL8Z7J7Iubt7A$AgGJ6
x~SeCNp2*zT<UsiWr4_Jtd9fv4erS1*:L0ot+Cr%<i]^Am6*HE!S@Z9MmQX~sXCNZI(V|X77U~?OCb<4P>[Sq^gZEVcCbli[!vy?
fg%ZOUg8|pF*_MN18oozP2YN[R5%^M6XLvGSyB>R6dJ[U9sTev_]g(XyO;aM$UD)>3R|YdIR)Iz.8&)pKHff]]4DWf07Nv0*ZR<j
NR**zGD39R2cSZhadnP>h2tXMwsZ(bmAbJ;UT2F5O9$MvH$Fo2h]9TBorwmd=kG.P07[U><]:^0(LfG9Y)kwmx$zAj&%s6CQ[1Rm
Do|wZToI[kB@7?7wj(%V4eQc4F@w3df|RA.SE;]pu5w$c*cZU<~.z.;RSVc)V$!GeYyvV1>~]LQ,KFwEI|plK3M*SDPGNKIG7ZWQ
>Mg3aY[T!4nE~!X@RBTHjt:<6b27*M1|cn2Q!LNw!MNfxF,QSuLbfv3ec>fE;ywITt4FPLYbNS9?a7ovrT(2_[TLwiTL$*hzu@]7
YFXUv!J0eZyzPA5sg8oG*<bEJu[qwRJ^nC)&x^n%,c*5;1~xxL0c>6@?>77*dKABpC^DEhIjzHgs0rhQkE)6D&7+%By5%94%mgB7
rnS0)+U7mzvtYux;9911HjLhsN<9Yy=p=xr^5j;yg&N0Hz7pk~=D=0;&mff;0_d9oQ0C=$8mg0m=Bd;l@uzxaW>8mi;[lzV=8mtN
l17~w.G9(];6wZMnGd!hjwb7)L.F3Ev8]KZ_)V)lPukGxaC.5(~Q?u):*k7(a)^X(=h&A!r0?F<VIdi&ib^_j|yzw||Zi*EZE?20
M!Y3fQV@+8C!pfF)@2_B$o7Z,Btti?8Ml?guMke3nQh1Tz0g%8!H@DEY<<+x.L8))G;3O,5+99&gE&lR%)*W=q05&X|m6WtG?%f^
Gw(ugm6[+gGH~1$4k|z0<s]6?_(nSm0;ebJxT.:KacXWQTr.<jj7ye&8=eCvTpHp(I6Gp27RX@?R<6>G.B5t[hQ+OUokEDxIFG[M
jOeu2s51Sw>n29?I*EL2pF4.fT.>I.UYH=Xij!FF)Db!K1q:8Gp;3S6?wX(un1i%Qw?1dZlWZ@[C1TB~LxIa+).a)^S4ZFG&T_j&
u]%O9ab~zNBYahq,|)*!Hz?M2>o5=2*ik~~lFh]3$%9.<pCTp&tyeBmHg,sR<6[ZDA(gdcUfYt.H]t:.4^aMRr5c(]e<Mns4yw:5
,R57KwR><%>za_dp2^l>|bc|fchpovV~Z&AWUO>a?2Cis)p@c>vrYbv|H3@GwliF:Q$zJp4+BN1x1:_S%_Pr1h;_o=Gj.4=T,DO+
(*x64He>|_S3:2F)<hWq&(xp8KWv4b,Y;77CUc4_@;wI;7^+pvZs^$z7=ew,@,N4lPkmq+hOnp7MzhJ=fJqdR1&oB.FWtJO~^Bif
NeG~;;E(TrvCb];:WShGp=(Ah&;>^]C+lu^y1R)soZuT7&Kh__pWL6:~,a:7+D0o&01t:YKBR2L6Hjg~$O=:l|;e5sn~BZz?ZRZK
e|5)ge=NOdA0P*(8&Dq>Y5+,yY8tqV2>x<y[tvth6Q)(,f|3oto9Q[SD$oJh8smXY0z@9_tO.n5S+xwIPLl:i76dqf^kQ[3TgX1?
zDl^W6woXqZKn)T:REGes|[+jJBMjc50$[KQX2RPU^Nu3I5v_)z28Kp.;Alv;5Ju9c6DgY~^M(*fw<GUvco0r5ZpoXvXB2;~2,*)
pSafIl2IzVs|&1cJN0|Q,QS3G*My]CnFn<:gVykIA,%i4xo]:]JBld+__~v;l@~NKS$%pAJw+2q%nCHFT_[pPsLcACh[xH:M8xar
]2BQLfy2KYa)QdE8XG]3~%+CTszWiqi8iuou6SVTv$?r[N3;]:GVbA$Ogi.Z_P$_UAR&S<hdho?wN1X=F,H65y&,LcDpy(K$EzCE
QWTFFm4*YVCL:iH(gESHt&QF&MNbmeN@8nb5YWC=*]DloSiMK>8<UTK$DEoEk!7?wGMB=6:io8.[v:]Do:f&8j3o7pF3s(D2NUk%
Zy1dU>&)|TCtJb<X^brLG4sy10heah?n>HT<a%P&:OV64alg?XDSV_je?E5ut)IXFlW>x8yk&LFX_,g4:rd$[[~<.zi;N4LLYFVc
P_9ckV!dI<W54T4?.@R7VF*^27!2c>o&;vdm%Y]ADgOy$05qD,WFMB5~27F_i0t(OO(E$klDIrrD(fMQ(s3GAEd~t18Y]IoY,H1j
rF7:VTeuJo43M!Aq:,%uR1bd)2=;*MD?xEAMC;=2ifMIijCQ(8o|Kah$HP)87@L&lL^wa8zZ,g[Nu|mZNlz[vZ+IE3D13?;Z7bVE
sSKh.Ctm4Z!)^$9E|C;V)[CWQn[Vv9eKSC&i^Xfbeg5k<2,4;L][+SlD.*0Xtb5Nb,8e0+3rGN72;3LKiLqCymW*qa>!3bt3k&Vi
bk~si=@&AgLe*Bp((kVqDF0Bp1y.K3NlZD=Q^x38RRL;xkU)ww,M]S3u6lzHdY~[yHyQ;=_ixBk*(!qYp;=Z?DXfhV=Vc;87KBrT
jyrFQ<H=FyV^YGIf3@Q0B2vV5UvE7>Hdz3xZMAmW+zVJw,o!GMEfJl7q6.a*p!U9|wMZN|KhN7:^T=$lBLXeBA!Wj0Db.ly6&M7K
3ZoO_QD58e6FCU%RIb,6^QQb5t2BCPUtdFelZ8;?PP_Z]Sy2sT9?,n=mNvkv3D,<KClal4pRYbEx>j|aw9]hzL0%tjU<P+0siI8=
0^P8XOPtHwqVHJi.tECT<CD<uy4vUz%~iJAo$,<!)QVrU|bPdD)17$$YXT_De1HGYWt)!,PD6V,^=E<WMBK8m.*+2??^n~XnJ(,v
6:])gAnC^%K[bTsrh%P+_&uWl<xcKVBDVSRh.C8byCI%vs9sg9,1e.kW9x?v1$OwPm1lJ8nh^OQ89q@fqIOcV&,G5JKMVjsww$jR
i1xxMv8_l>)OQ5!Q6X$i(an~m4BaORb@S]+q12ufc6@)28S+swQI!6,T$_=$sV*Sk!]$Vh*mwv026_muyBn>YW>!|Y)iqz6mRA*X
^=6$19|HeKX5>%D6DzwrR$R*AeQnJ3u(7<_B~NcJ[UW@1pdFx~dGQ!7bBz_<@9CAMn0HJ3~HrdjU&3p[:kp9!=4G^e@fK(<zI_s.
*K@clCIUG!XXI><FUT*6|!xGo[0ig<56WxXU(3:ozlZgxaM]l~~!1K;E$VB=PYtXkR*+U1).)9fWc3O6=xt*6Gmy@25dN]idHIL:
Ut,S..Sa5PJGMM!J_3B=bJa0~0yG@pFu)tOqQIJUpFe*v~v|%V~S6F^oM5pr*iW7uc*PF70SIX8|=cJc=^W$?B9[FXkV)QKYv9z5
SrQwxqM3E@<~&<C>SF[s_$;Vn:*>bhd=7.~XghmpLzgLW&Ielt[eTIFeQE3.e.g(hF=_^wX6%7.=>ywvG4$6iZ1vLLJ^BftnX9CS
<E7IUojI;=UdnoxhmhZ4Z6ipKMIpjU@NOe[fvs3m==9)h%x_dd*_n8d28,[%K3R)M=Q?9J]*2sf|bEA+uxj=n)H^mX~9f~9oFzLr
?6qb+MFJ?r:w<5|cE<D$I^Qs)BFgg[xn9TavYSHoTglZRqaAX2RuK:,uJPbaYrD0ngM*aO03Ww%xUgCJnfC0?qZA?E(sxj.M>rrn
Gl?=L(R<=1^wvzs<)bBt5~2@0Y1hi0J6kgD[+Q6$.ROqeaMfou$w*yPEak)hDl5ZA*EOG$G;$BHQ=_S72dGr00;~~|[?~:DuMxK?
HSOwL@tTe<+[anF*,X>NB6OfInBGK!@sRb?J:WD1M_:+,u0SxDj3;m$gj0Z<n>$uhs^OB:<zlx5fsjqfg=E:<7rWjCC6;NLe1$kF
,O|pVbA@_2nBb>LZB4&LfX)_E6PX:YuLwnjxFK.l$ntyF.cROh2EPPIh2E9yO6@&;3VPn.f?d+Bz^;a_%QS:Gm)>00l|MRFI5dD9
?b*bda^Fm4cnfCm2PE?+fl)vDx0c^&qKk9m2ZHzIGr6VO?WZW+c>soE^2%H[(3tKF6tX,6ws;.V(<~Xi<YKZ.inp23P>bEySgS_S
TAPf.K7Es33^X;4p=;&J~N@2U;Tt|ipjZg_>=*To[O~NktM_::Ui.Tr%FUnK@&R!3oF8gr;Y@jbhv,r^VC*4ys26Cl@:z(y+9JcK
Y:D[$&?;nSPyYpD(oI$]ibB<K@@9WzPqnc|giJ,U20[pb|0O(H3VD_wx&Lh+&s<_ayH%HfBsCEgXZGmD6r9EC(PBr[cCmL);9k9C
K9z0TvrR%czud)4p7kJn30aE9VNlE,5mfQ9l=z:DoCc^:KxdCS*PD%z2~v~RdB3VIq598u~2].7nI87,,,$U46stQ9JlHDA<e%)%
l9purL4$XeNOhqCtM?!9qe(>Z5E_$ggO1F7X@3d2z]1XL3xw,CZ]A=7WaLTzI<beZstK3pOm;1&W|J1!3>rOq.rW+TLnj(A<EL]c
Kkcv+mb@FWN.~47O7GQC1;!4SuYaww2s3*N6lq[oWs9C0ADXK:ac0[AwILA$Z$*n@2mJCblC+YUN|YwjbDV;R9WU[rP|KbFkt&kU
YPlj<MO!!jIJw&St3P;ijzTtS8kME:uk1VTsLZ|:6%T[e+e=+Jki,L<q4N7CZ_eytR+uzT.E6_LojxvDAIl[)<V+gnsI&+Fca$^^
<C=B3&gFNVjp,zPX&lyU85XQL@[N4*Bs6oYS6zgHVLY2TV9nLf*|KE9nw:L=5FQ%iXCnG052:%WJ2t+?x:f?D,3Hi]box^)RHlc^
rK2><>zfz>ysIvwyE~^kL1l]8NH6j*,AC(V7d?t4BTC]=aKVl.ZH*+vFz7%go5r<e5]bhVp%;dR=qP8ZWeoBquU&c)$_hv~*~~Vg
hH]r[&t0><24mWof%7YWVN(A]&mE[P>7hSXpxdcf_stOH0&)BMG[FAg.judbr$Vy*agS$IZ|a6bJt3eJ>t003~O@w~;T*z48!XZf
i4N_;$yiR~R4ep;W:xT5V_&)!9w78fY17%+??ahn$Cdk@H(J3ae7!!uUHdYQ)]z3dNE*X)IJ|iY_|4jEyZb,+vllhg5~osL6@A(D
b+8:K,<.g3:jB[zW9]JG@^)4hG>=P*Pd~9^hr$~u_~ob.![CVtt4|m<Uc~(ycPw].,~;S%5PD]~il[5l^G!HuZ&Q,01SDgC|vQdI
K%0_2T@Ex]XC5@L(n@@l$@<^u]~ho)n+Hv&JZ%zGk+75+B3tV%PGeJp[L1]1$t1M&@,I%h,TEHvsW:xY!<%s[Su1BMY!c)uaxmN)
MERu9odO;|Gs>%I6;,Y0UWD1(WQw0M]npwZa99MvpvZ04XJ4wytG%wGHa^;)^bu8Z$%;eh6!;%(rXWZs_;7E|W~V|cXKfdw(;$&7
:$++3%8G%57DOk5QgETgvn%QcVwF$7_NxqCfCe1Z=a8GzKzh]NG]&ea|mwc;d;$zR5J&JCYdt;[SXGye3Q;]7UEn&5JhMC;n0Zn>
$7Z9(s!+!3]_J]F]F~R)CL(>1jRt(F_jFc:2uNh$]$g1S+cSn9a]aQaF(DJF<BMFJ6]ne9^8]|=|Jp<.Fvb[l?rFu=xXj$qZ9*r,
HOo%1o?h]0_694.M.,yA7;jMLD1dkDJe%Ee|4a,h)?$mBy@Nj9v8d6iUbHv2e],S6<8dXBGowS%u^LnrO|28QSo0|I0BmKy3%jWk
=**&db(>HsW4RN$A|l+Vd(zx+ndIXR]z[edXm.%Qj?IuATTi*>!2Z_l5u)GDs(;]63|ER@HOn5T~$qvxYTh7qXN[q1VK^[JLthv6
4sx5%.dQGQfP&NiYNH>Y[:Y;CIyu8|rB==+^SXUtJF6l,jw_8Mkjo2+$mC)J5IhkA,xh!_Tdq](x(9&~!vm7F$,ALI9n=OMe||gV
?KR5cr.K&^d_:n0S<iY$<TURh6XO~*e1wB6FPf>Ml>b<H)tLD!38yLTf9UL2MSCn&BG2r+.I=:|1WSceLbx|hOAx5;UWns5eC!!C
TggGaHp[=:o&.C^xL&j,%BW2.gGsExQ&[Qb|wx7l4U=wu0A|1Yf0+y$TRpCAa343~B]|qJ6_R&$Y^ih9<Brhy__hcpcKd(B5J6Ru
@^Ay<ox[GnB~EK8%>h8VmB%;gE_tR7QQtbDyzHEyhZD]pP4$Hur<Qe2c*)XEOhb@y7h^6Osbtw8S|(uXO581kgKG@WjAiaN|OHau
1IQ0eb:G]SV=%o8;EyD6vvNYBv~%Q*_I)i~]]P+)|jC(A!)5G)MU=Wq1p>F[mT%G[6plTiPRdHCB:.3|<A@(8&k1s^6z3V9u7tJ%
_cToG=i98f2p$vS?D&bQw9_TJ::EacMb;x$U58C@8=2r;*z4vhv<^k=zDjY7rFo&oz)ov&=x^zWi]fUxXY0tL~zE*u|:8oToOHe+
r.zj[_Z(asX7N])E|gE:l|SNxX6zKk(v7C&BK&::QxBQgeARWOGP?0LM$3!X$gJ&7DN<iLx=%C>55b<?9G6d4Bi7hh4w~b%m2RP_
EDt&;9x!|A<uiHz!azrJ5fFZrmWHS.n|TGsJavxmQ6XUU<YC=:n%k:xn]~o(|D.bsRay;L.+O=z@,v]j;MST9ScWS4nYAXHgUO3^
1y+9i@MK)OH[S:q~8^ds7iW_3H(_*m1^~dtkX[I2RRri>H)au&cDc=@g&HOXIOa9gj$gvNYtE8U9fvE9L23WZ^H71X7h;J6D([Gu
!KSDS3t:Zj@5dsm_EYZD*&Iv4$v2L^yqL+4)7;Q;y1ZOgR<PV<p[HbOsw.<m3fuJk0U|RoHcRuxrguasW.O):s$O+1nO8SYOKpow
@pC9k6s7xH8GYfA@Q+s$]?,s@iL@h;k=PQO+(1*AtW_=+]YwYL|Y05)%][[=TVpH+fu^(xtAdSlmP.8cs2?nQZ8>rj7|OeeykQ6H
&BHvtPzqR0[H?:]hc4p?AXfrN)04Gz?%dPx(LvH3rXTc!ea%t?T2Oj3[SaN=?f]U9yiXgeB6Rfzw=5DEf^DA~_1<?j_*mN>wW9XF
|YcWS3?kTsc^uon[9*c>|=Nbwd<PAb%~ohYuQVAZ!0Y%VUW3F[]<snt?Ngqj&v.Px9GL3X>,M83f$g!NK2g&;L?@sJj9xBoZ8jIv
w8)[J9Au~pxe7m)Ytd2m2Yn&ECPGLIoe4cdWsfHV]&A8&ZSL?~,,ZGszaPLBnwf]a~,.R,x1dzqD(|z.TBW2R>fuY&DnAnoB~D,n
lL9<;tT<0T~O;2n)4R|e.4%t9*T4PedH7oWRt+g]$%|(MAZ72tFqV?G]u8Gpj?7$Qq=2r?yN5TYccJWfc~]prHbzanT19E?CIDN(
ou+&AQ&hI4.FL,R(>EK.~d|>oDFxy05VpQs=[+;W%2;DM?nz~5HpK)Ubo7Tvy&esh.cHmfWo.IRC=t>QM<j2U,e~(jAy(cSsbJ!7
:eG2I&&zoxunxTPw>3zGIZywH<yD@[R$8y5f460HcWQOh(djkWtsIJP01,eG[3rL~4j?(1Bx)xkp5vj<|O.(5lZO1wn2ywchcHgc
Ncch7RJ_ffT.Cgv+||sI5ha*io:c]1)bFWI,S5fs>H|?X2h(iSpNDRblIe|>.n7r00^yx7)&gnEc;e,OaGv+If7]R@2In_ZW73QT
bJaem3><Eg=?kny8Ut.F9.J;&x=Q[|DLI3s<,O],|$(kizmOy;3).QO%MOKz@SR|80JO7L=KodQVAnj;|^tm[LtX,xt*XQs%G!A[
cqlN%rCuyFCNUj7s^xX_eCBTvrRyVrgs=Lww|t34gcor$nMjSSX=TJEDdN~oKD;3ZQUOYRsmoDj1=>cU*df~ImW!xuF9>S5bE6=g
y7~%&eh0Z6QSo.Z,iCDCHNLtO(I[CHA|<UZR0o(wDI:B2grv^EOK9fjVpq=!48q>R*YIlWs)cK74MU,(DNauKLgeleppuZ*xM%FJ
[vVl>n%0M^9$DNYL?TY>boAD,=q]L^Ed|>Ft=0M);^4xh:G$Q0FRmBNix@;jxuogMAfu[Qz~P(nzY?qG8DHk%uX:RXg9x_OC_J$S
CBW3lSt4wG%?r;P2Shr)_m>%7>Y.x^k.HCLQ*2lTiLeg7G^P*m:Ygtp;rziyDCYfZt4rDeYpgyUJ_mlKGAn@,zke=ythunOI_%1Q
GTgjYF:?tjf&h&dLjM+^z125Z%biK1s?:nDe]k.q8AM]?6cw[]PEJ79_sB)Xe:&:.K0p5@~nN|%._2_uM<F[k^!4oAC,]%2tFN_a
caz,D*u?0hgty?B7Dp~naPv$&RXNPk&wBqdl2[xPDb)j7eU,<e<,LW7vs1[0Rz5=]l~w=exY+V8,q,(>nw6c)gkL5:wmRc5<D=H!
n:S_ticr&9H+L^>_)6|9xO~pOOC<I>.NTn~RY=vF*oR9[a)fPG_8bYoMQ$_;IH[2~)YJ+b[2D+Bg$Kt~XscdAfgi]eZc5A*[I>=[
qi%bsWvauHbZ_+tQt,d3N?d:80lBd$;;R!u~bWj0(!hg6_fWd~zmMbsG[7B5Q3xecOvPP~.h;UuAiH<JZpUu*=x69BL*ym&A24T=
gRB%PeZ_L+7mY_BDYeZ(V(X1X3kpO_o+dMIpH,Q112Jz[0!s*~tkwSvj>OPr^k3I4a9hp4j=nBy8>F@G+ZZ3sV!G(2g&1([FEyXk
&*85!wDVUdMsfR:$@^gCd*E)J$%~I_KoyhNeQrhc~OH399I3ctG6+QCQi@mKw*8CD2Z5JlDwQfysa?AKSCT;9ww*6axbzQX27UeK
;z*k<(CIXGN<J?Vuztp,ARk_)&,esHia%>~:<z5XjEM4UWoxZGn.+YJVR5c61IxpaOnCq2_m;J.Om3~GqCBb4Wu1p>2(iFf.8lV%
oBwd!^tq2c5;Qzk=B&>ZH,G^[%c<12?kmhO%C^F6)@Nm6*P(+:y)j1pK_fH.CI|ogN:IWtc2&T^xFq<OO0Mr+UT8B8mKjp.SI8p<
M4nT@KJz$+i(SHi1fr2.I[]u<~ViECipvFE+&iWr,yZoW5cc%l+DH7LB0T@%VK+^J+5KFw>zlWR=0.o!k[1hkh,BZWSL.!Fo+I)E
rI1mA+pOTY%wI*1?j+F^Z!5*bebV4sk*I(b.mX41dktnhaLWwbpCZ|^_yYIYHfsKH1!q~7H@I]neb:gyK.YJShbiG)06[!*Nf8LL
J(aj9dj_)5x_fUeN2$GC(suvF&l[5XQmV8*DwRm.o;DX7dP<.YLB[3Y~00I<YnlYdH2wo_(rO!DsFKPNWm&8oP|r,D.;YZ^a&G$b
9C2<>+p)VA@i&oiml)~ZCzE&1<jP?W?iMme>4]7lHXGDCYo%no1Y]gk22xtrRVEJql^N[hxC:Dmemda,u],Y1a<g(P$U:7aFU(XG
4B@Wb_~=@9rLi!<Aw(iD,%~kUT4(H]nsNIlUR+CC0)oO7^h&G3EUXI9IqSNl%~6YF^vtgCVH%Z:O3Y^cbUE<5yRrQ:QALQNR4[(+
Tp=_bsR93R:[nyTHuq([FbJ6xjv@Bc|4w<@8LnLZs1Tu2*>I50HROUqxNPy4n,)Zn3WJsmvlUz345%[n+4u1Anjv.(YWfE*y3*7O
_c>P>(&M?ZBSU^IUeRKmLw)xcSd^210gf:IlcgB22<4w:H%Tdyi>VJ+BK5DlUY5Y8;vtJoj|0K|ng@]bD%Vg2R*c0&ri,]oj&np$
=mr]]SawV(BqsH$C<NpLa!t>lTOxSXwKdMb_D1_+mkWQHq_[+S?yrs|t~><YlT*29IYgPtN.KL8K3a0!h[Tjz]Rh$^TDKlKIL<(C
LqbN[a,BO[nGn*du9GgAS|GlP26s>O[>fugni~s>a,<fi4,R?tY%U%:t~Y(9T)aLrD)XX>:hKKxgJO~LKh[s9:Er8=<h2Uh18>.R
:3E:KG?P*^UwqJBLJkXI~ieJ~+gTz8o)Vqs2c1)&8aM5gnBpB3@n+:~Xw$y^e&dOD]gYQ(Qpr|za&ywYYyO~]Y6AT7$y=t6XJE7T
2y7Wm2UYqVg1|L:DwGffNJhtScF+tptDZAnw:5<=*KYu|YVK:y98VsOFCJAk25wkg8%G,eyPp<T8^GX.Oab2W,jl0%SnKlUYwgp)
LV=OtSd~?,n1nzyksD(=q>?:hhuxqYT[Fa+C>4&TMD(^d3vP2H8Rc_*~p>yMk4_m4J]WF^gL<..rjWdoG4gCteLwPvgJIit:QU_P
rq7BsoIN)uD&sj7e!Gx4rNJXxxP6vp:e5bE;&I6_Ww>KfZ:e@OQ$<a,n|+FoIrI<aC<YHU1=udQj3yH38a~%P>oGG=UkptTq]D_o
k>QiHmxj^.Bpww.m+]FCcdDL(J79dNd6((DwxPH[JMYbZ$G:m6]U8ey))4rZW~JKJ*)W&V]I+w!QRe<t:WVV!q|SNKI9&iproX?O
ux=]H0tvy+UF.=:EhKbfwbG?2mR^kvTkFwn:J%2r6t*n8g0h]XN|o+ljd_YU|@y6_+8DGH;8CpKxErokHTEqoIu7:Deab$0IZ>jA
&s)vfZ<9IT3X[_U[eNDhz$Iovh3>GXAm.7$OpX+NEag[RV>i*Wa!4a|b,sM+5(.d:Chi9hYU<t[g)6Vq].v=hce^EIUx04AsnIxm
q@q=SnpmR$R%lM!=:ikw,<UMU3;By?S6B<*s|d%@(S=e)ZZ:rVD:Z.8c9Z2cCVXU0J89O?*9:VTU@&Oq:sePi:i&1y~(84wduIYC
8*L6ec39wrxejqR<8*t,nFUKDmmc4g<c6*zS)A[Q~cl9UD(tqj]zIjhTk097?r=!OE!Kd=hh%4!4Q91mh;>T,<O+t+c1qz~!0d~5
w%+Q^r>;.!Cevoh9%GSy+Hrw+L<kdWV?Pga;ysfn?8eTe6S7[0PEEL168SUbD)&U&9<%*y9o9L0qAafd%:[)q2SuDy4+atewkI2i
tqo_KALW&>To6^1_g1,)*_@=T6R8SF4dUbQp>6@y1x$Ru2a!?s3jy*QR>S7&61[ki:!$,udPFO7w%nT),|EU5=vk+S$(s0Z%S<6V
&utC,kzhPDN9gBBc5WT<&eoG25tJH<SB<[LHyXZE=a&sPNnHfTd[Z9xb<NwP|dOU6C+;_$<$gcBlhj.Yx|$_N@u%x9daUxq;G2z8
%g2EIKt*Up<vFFW,%mV.RaSCnAxHet7a|S3d1ryq7jBgLLDlVOR?>I]JR%[*P^m4TkvC)yr,tFLyrFX52e5,U3jWL9MnMNkBgH%u
to%TKrtsHBx%i!FtAM=uoxw$den^cZ6t14iJ&39w:UEQoyV;a[3^OAhWY=&zw<<JeAW%m4uW2?wiF^(htLj[AcZptV*dv>65HO=~
4Eg=pYpf8tjq$1n%k?+;y+VGihQ>xL.a)WORF8k@L;|E:<$g5]fYBqEFYL9AJT*:)TfR3Jh=s*Ry&0;&K9J!NTFjR<6(am22VK|i
H8Tnure?AW)BUY.BLyIF[&)!rn4yMR$3HxLc,.eNYr2_Ldy2NP5,8$Z|=bh$(gPETyZKEdxC[[K)J_l.e&^CnhGU3iC_Ivx]e<|a
)GqrkO?rv]>oxB$W=Uq0^3d:~&L3[5~QcxXO&?2AxWvhs0&y@v(h4I!SA(6]JTWcy0$oQuzuU$BmgkN<xc[(iQavu?oK(QM%E2ms
[t!O,uNbfdWtzs:Py.q~!IIz.N.NSksbvfqhuu_jL@H.ypB4@e+hoh?:RkZ,,?|w@2d:_x2ng7FRk7U[vnaM+s|!TLQpAB89Ut)E
<[rXl129ILV!LVgXC*^TT<_<Grqg+_!FZBT3MT7|;JyYJ1xBVRTJ;DHV@)W.YvC?at*.hW&L38pZ,b:wEhym_Z(etwWISkhNpajI
SRlHJY)4F<:mJu(m:Sks2aj4Y4.:C@XcC3&|xynp$NE|T(Z@2wDtx8,FH4*ximg%L%]pfzRLgqIXyXhGtf@6;&s<Ho$X((Zzz[c,
(onN;]U?2&y7x8T@Dqu)AyEvs=V?oD*?8f7&8oMi@<GCPXK01SyNgY8iVI7wng.+:I7TzeE%qK^M^4,&%N1NLMOLmx_A[*[b2Fk@
EW_q[<BLtlVjpow|6~Mc5E~U5;o~Fob2pRcfh_u.Ad^&O;3EQkL)EY+,U2333W5lg<nsV.G[e.Z0q4nN?2M|OBKs&Q&YCz4d!Y?d
&&~zqS?ghW)UE@d>6^Qcv+LvOd&vsa$KFkKEFSE1Lnc+w,DxoiiOyHhJqBAJJ,3LlA(Z6H:$ciFGr$!kak8r)4mcN!YMA7~wB?s:
s][Z_w=B1@uae[4nyP^A5V?,HDEb]0k<nz)]3aJ)*!w<KQ*Bb)q:.$Lz^_36![aRqhLy.RyEshtD3<[]vxT1|vQv|P?S7Y00:YU$
Jv|2*mvpY>j>!IgQiUrqMHhF5S%gBOfjekp&inyT46Y$hi?Pdq6E_0:CEncL[Mbkn~Sve]~M(lHRoo$&[lL,zRjwW1%.$gexJlvI
gCOxeImO5x()M7(Cq8$*=;Um(uBdTcONI.:JKJ~>rTBwa(48$6iP,t|=|Ak9$7q%Yt)H3w8GG]t3u70[llIde2Dl*5d3a:8<5o^[
Q(H|1eo1!n!Y!BBI2i9^CArQsL>trdiIEw!KJrw*$lJ0UL1jKa6X2A+wKA6!ay74T|hqeJOAed^aDVIlqxG^u~V@^K)%*M&^L6Qs
:+W+kfuTbHG0nwZ414VJd2[bYyd8VM|tdo?],Zn+7JSxJdk^0Z|Dc(OV%Q(^i!;HK20wJ?~PT;4Z$$BIaoYT89j&|eA8d9LoEe:R
kaRiO.Ee+kxFm1N,fba;VA@KT,VbsPz?F9Mr0IsXvCA|h937zI__n.65QCB)c4.If$?_s=tteYR,ir$TeIyCYwZcHAe2MiuO2*df
ou2fA?acQrPwl0[R8bHg!CU.F^)jEmQpb02S2*l;TA(BJzcN2PT;KH!~tHKM3CD!ea*42PrO$8v_n=B5Nre8QSZvV|1!5:Bki@od
=w%8(ml7U%TjBb3g9VFgq[[[@DpT!N8=!l*]tc7DsrB8P*Z,.ev]jIO~WYq]n.@G|<sp+13O[!cJy+HmJ]px4gV.Yp^XQKQ+bU3X
o?EDkVGUN4P3:Np:MM~o=H(Ch?,*nBfm^pfi.Dly*4)N8NLrNUZLMMKnl)K3F^=,V&8T^;cc%@%4LLi]G*s;9V!3IlxKe[p.^7ca
6>rkJ[Y*j;4v&[.Z<y!ivPMsS*Y9?mO+OlN8+=itl~X%JF:ydqe;H5^bousxyx&K]T<f[1]N;<<oJ=x%:XN1b~^JMBB:2N;v<TB^
^LkZ86q91rHgC<KfylcL7Vlj;*b|DO4@mOf5sR$$zgR9I?b7E*p,x2Kiv&O!uF^>h[M|;KAllYTCA_4SrGsc[6Lj=LX[T8)yK4=t
bjpruaDyaF,[2y);HuagfMk%m+0Kx;|?H(Iej8cpgXK^+a&_&nv$!PAus?D,VQvKMR2BR%1hmW&VSKF_wSt?h8tkrI|r[,OGn3gT
),vT*HOZHp17d%n2Ub2|aQMWVLF(sg30QnF|XuFqlY6HHazNtd&wzG=,wk_f(lRL_*Sq4j9YDb^bfCyNWHxDz&nnO[s3O|Otx|h4
1DdIld3iv!s4o+Wjv](oZJ7.fuA5NWkxSzrT+(ZVzV|7owJHva.;q>mTXT][imFctHVi^r&Q<QoL[88+$z!WuW3yD6|Mp.vS2vxC
yNx%[L;^RVm5CXE_3W:jT!:y+Qg|iZoiIdfFV2=!1K~LL&uU&F~,CTSRh&T+%).8IO>HGqyqYgS6&6S*]v1yh=5?$_RD[YzlSi~8
|vga70dxV&^j1l2SF+e(8J=l22pK5Ch.MSrGgX)0x_F<Jt<ozG|!fEv?%;Ks2Kcqc7T:;)iXmC.>W(B7c0]XT45mxR<r;u+UhhZM
y.qTxr$XUc)FzD<Q_oeU^LA_~|tx8+xZu<6^<c0HhAy|byQP8zSly~8]BCD$g47>HHM7ux7(L:r](4EIq^dQ0T[gg;5tM0jnQ,0a
?I~WOv51*$|a81wqUfab;kmPRNxdl1pz$P28yeupSEX=ZdT|n;j;<@<5QOiQ77o@rDJvY]ltxixc=Pvo_<k:i%0ofa3Pu+83R(>v
M2lHCk4rYma9~n>D3pZ4>W(8W*)qYR~UDNK3>:XKZCSPM5Pdx^hd?Jh696(Up:.7uS<r]T.2p[D@VcNDB|Y<:G(9wXWn5pC2gpP;
ucjgvmf;%Vc_(a1<]Lo^pdCHn]AoA_IQ@F&L7niX2PRw?:yu[X.B=;tUIHPMEVO2l%?oEDM2Eq&0iS<A&aB9lBQpHMfXM]7J~,%^
AmMj?t0v0Z50U4^5dym9Uztrcmu$9|!WhaD)Avr=kvja+>F9R84[@W:>Ozij~hBV@U(<To!EklX*z>%jCQON^:1+O09F8l;+U]DE
6RpMkBdc?VpBV]ig^u!$f?Q3ho&HP(+N8.H[oCt:)tYD,q6[jkN[PREc>FvgKrp(E|~O($:(xtBW7Y;BJerMgi?CSy^LnG$>%|Vf
]@X:aclDe=ON;rUY|x%_^ySIA%KiFbcjyU*8jX&Y!3R3V.FH@Qv|6|f%:.97?y~1dHtLT&Du&^$|2^[MBQ_.E(KuDt&EVioxV@,R
T8O+Y$VKSZApd,~w(0mAiad:S<*QqN^uL3_<OLiWXf*K~sEWezs,F9Wh=o5i3%~1CrtfSkWR7MT_C7vupD7WEVlwVeBE;c9@qo;<
o1a9A;tMDjsOkJ8~VHVoRI5P4Zy_d:?9Y5094NMC8qNOJl>6OK,i:M2^Y,_kc$O$&rsnJd8^H$V5S=T4eNC^C,JD|,kWi[B7nZUo
@Z3!(fEB(iJy6D4Rm7[gK)R0EHsg?dcSTr90,?%3Uw4nMd|HKyJ0ZrV~&,+4y&z_d^4>o~68pBd<(JvFlC>$]|)j0%pe[z.pUP$)
9Epy!BzlKr?[=w1Ak23ZZ_pW]gixg$_*Y:5B7EuMhsN$JW!8Sg~gP)NbTcestuO~EAAaU7ePS>(GuB,gwqgx1w8<L77|EEX13%=h
$Li=J5Zo=ZkfD0v:7z9Ny!VcX1JhGpt,*>b.vzKwcovr;jeMN]be1(tub+aMj(aZEFyv5!6v(JgxV,MD|s=>zGQZ=r@e+p6>@*]]
3;g]y,TB)qZL;PPmf0e&lf,cy8.]XEm>1|FvZ7f0*+.SO1eTL%t+PUb:S62NgUz:3o[Gk!p&ZPMRKJ~c>T1HIuxqrteRrqUi+A9r
3d5F49$pVnctFM(yr$d7y^u:<WtiwkX+RQ6bkhh4Rg<Kq=<ZiK~fish:mhI5GAwbNN9UEsxq=:)^E^6u;q)n:xvEf;5*n7LD(+|]
Gdi>wz7W.MjuCTAc$!=k(8!R>8.iNpUE=N<F$J3PFJP_x!T4anLK[n5vk<xWkTfm;q,HJSRKp~MZBxpxfKsv(!.REBf)CCNp$v3:
Om=~9h!+er<CHIoYf@lpz(@Xl5kRgKJIks0*So!aRr:j4I[lbi]Dzjc<m3m3HS]qrns3iw?.]U8B.l=mQv[].]W[pc]atZ]*HmfL
^A5Hge8+n5|9LWYXp(vEyD4>uIJOq2?n+M*R48RdosKGVBO[@6m;k81ijdRJ8CJqh2;2w$71fiw&YpfGzIgG|n4Q?K^l9n.ksfO)
46k)w6b$,qNrtxXD~!yb>Gs[mz[GMM&DHDH)47F2N[T|.zJa&C2TSM!x9FIP(W3y2&FF9@;AY2n%PNh?i~5E&XH>7<GlC_D4TIU^
7[G.h1=KQgI|Le|~MsywINBP+f5kWLZPBT=;=Wm&Dw~uX2]qja9uiz4ZYYJ~v:I:yc|MV_Dx87^WNk~Q*GSajOq(qUA&szLjND[~
uE@jvpdQoZh<x8I$LO+G3_y%N<!+BeS>wbgkxcinV,>[|4_;b%efa?Hr85uhcT6yA*LP=cEP25>oV4V9m7a2l9.F8oX9m.OPTg>Q
M@Bmui&*G5,^HK_N:el*pWneyrmZHRSHHp6Gz1]EU~&elTLQ*ZT2%PEDs@xA&kI9V)+g,SCPx3HWWzi:fz+LGR?PnP=L$28*qn36
mDd@^Biv^:>yq,JD[~VL1GPY[s6TRkE8oE0ghJ:[M<O9GSDf8qm1j6ZoCF.0TUnDTK6Q<|&JI4%Z*iOda(Kp^RupJ0Yr]T~VXH5*
oBS^N7cC6gs_I0isaowE9zDq_TEZj9U)a^KAKYMuU84j($n<6^:,:MX%fBh4<,)YPA9Y%rA|8CR3bI0:rU(]:guR9l[gpAwJkKNS
.!]N~:@@*f:Eq7PyfH|.CY+b2uO*=x(qXwN69phVmJ@Drkg&bGGFv[3C)D+N4nY9?yPK2mp3y+<HTf8y^?h60bApn~GLYH1tFo^a
zaVNPY]3xR5k6YnP8]+CH4|)etNeHN7Xo~mJ*VJdQs4NuQ9PP.;;0R_bEVZZ(q^Y$~@O2=&1Z>&^6PcC(Sut:McJmit7]zS!NXr[
svWayc0Rhii5yxh4f9Hq2iBJBcJazz;9i(]&u4Q[|<D7V[iY8$|CEt2h))E1KS:[pS<(3A31,$FzZQY6V*6ZEWnIFk$f6b9M[$|@
HPvC)m>s3JVRxl3!q$YB9=jwH*:F6xvb4QwHVH.+3p2(0@cMChY@FKFQ7aebHUj$QL4F[cii&=m5|6y?gKZM1Y)YY](UkB8,[y)s
a=a$lcUESEbG]uP96^a:Jc52*66TCdzP*PakT&g2PxJS)KLCmMV;.Fb2*Ut[~PB>(:y1_9o4+Zw2My)2GtrbV*Na_QJ^Ple~X?%J
|TG|iJToPhx[*Z0!afinQ3+9,t|6!=9^2ZVM4T<+]+X(sL&tr(k_.f5&o;7|7t^oJCD=^4qH2A*rWjYIY(4r+PYdxLBFb<lRvf4M
l:f0+$aqrg4<:5b2ov!ElwF5WC?(u|1r!?~HVEBjR:2jZK@tZatUc2t2,Ow_.Y=S_4W~sTimaE!.+pDci)sI!)T&C|n.K.e.zn?L
YnPr7W1!aY6T!d)2Rj3r@~^%7m|,mBR>RhC1:XTO=p;O)cVq)>.8>1,&W[w6l]Z%<SB!gm9CYYQ7HUf]LST^Lim!jM],?W5f!SYB
OkFmphMWEv2;*8pR3d,mZ:V,kCgC2;lFozE*>|i&jnsx0,%FY3~rdIcC^v!>1@S[3$Zv=G60La?yYY$(]f,!S&C,8z:P~,;Y:4C%
j]BIdcrvkV(XGwj.OX%I*i&%s^~*Qip]Uf:8]kzuHTVu7[),OLd,KbYK;>Q>_<T!bE3@HI@?CuYz=z$lM<HDgBpknVbmngZ9:a5d
!1nG|EYR0(VE5W+s4bw71:$F9$DOpMe4fjLRxys4?Xk+xI6TPnzV+N9~::YZ@M2lYe!F4(SYC.BNY6CjW75?u@<5I7XFxb9(;?Fb
=(0C9h<f38Fa:l0!qLv4Ppw9V*@qMRE;%~cYOx9J4;c]rBZ%SH?1qS%1~.G7_W?QMAK3%2.(<$ZgxtKX+1(=,l%2AT5_lM!rf]h6
maT=u%8OahojYyFTxkP]!X?(qtn_C]1m:23@dw=C2?0rO,*BQlQfq%NYwl^[=@]<VRppL2)u26m+>qQx.zB1GNEpRV+k3WRkJ4WC
C_IlCi(GQIu$|RUx9i~R+RaC8:NYxF,9CWX|=i5Pca<~ZU[,Lam]_q:UMdKdIPg1kfGh,etsI0P1(RHn@Y7I.m!nsqL8E+[>]%gc
QybOAC!Mg]qw6)x~F:%~39F@)YnL],m:f0rFOxY|%kI60,I!_kZz<1b8cl_hzQ*;1Ca@=c;kf:|17^8.b;bqOuVBnJY^YLf(K~O%
1u*&U&d7&T$y.UMd2DoM8L&e!FmxU@IA&kd9=?67%xTK@OC=wO~[9yNOjnSu:s:3z5d6^7~KVc88l|>^yw8!75zusU~dcHX@gp53
gZqoDTh;x%fLNc<3qn5[tNi6D;1[&?f)%yY]7;%Hv+f=T<lq4esc;d=0c>_l%CE:gyk7|t8ILRG2!wy3LIb!1)r:n)$k(op9c1y;
4)$=IKm5dVM&;DWVitD0zQh[&K[gYs<w9)y|:eDao(%Ut&6o..J@6B3P8IKc%Oy>4<]@)QE|C!_wVrqy.[pKJ>27mHJ.etk_Ed~J
hv05ZzqbvXF8PG4]FWLf6BIr>*&8EfF,ps|lGA[)f(b5CH;k6+wjzq7;BMWZI*Tj*(4q>&60=4^p1p*:[Uk2U8n3pC^lxk3D>19~
@guWA=?u*%CDnCuK4nr6,*Z[[SI$$*6RTq]58!>>hZ@:nDb;rF4ULX|TCLssm5Dd@:w::*E|frI_wQ;<Ruap]fzh9zAbjulCCh.p
$B1Ebbmv.iSHJ;0qa.&4VfPw;ZSG@Yx^kQS[+jH?i8m<T|u.nN;Mw@SiQKnciyt(s7Vu5Wv3N%)KQM??!i8C_LgztUCgXB2h[;GN
X5c(:M:+O<bpuK6jC3C>cNhUszUaOxs5pzODCj7,7Kq?qw&T]gU:W)(&hVJ~=zG&M8ey&b)dD72HK9GE,eD4Q+I2=8tXZzxonEO4
iq<2HfWYI%y^|R@kHuVE?w^).&ap5wbx4~lUYZW<rnl:K+N_9S^cUnzbV@+,>ZayhN7=D)EPzo)acxD0EnvGx18U@TR:0s&nKc0M
?[408UP38uDZS0M%wrDH+~=)=Pw[lUKrU^=3p0.@g8c;?Zn@&Ws1XOn5@L7=7o+M1^+3VIbjVZUb|s:Uy&V&CK@tPkr&,pKymWrS
qp&9,M!plWJdC];Rvi9FQQI]rkr5Q%9T<NAG06iW$CW^!~Yt%bgu^VqGo,as_Xh+~>Jn?F+|ypZO_p!S[cYoSj*^?Na5rJK@)OXX
MX;!E@kZ9W:P&OQ5V8^>n9.Qu|hbj+aWmR|s67[cHD.TtV[SzhNIq2dTAjj,c7*bQApj7(pNK+Q;?SmT7$t+mtS3%>[HBf2[Rd~K
x7aps[OM=q,)[AF$?(*^eJOCI.)~(j^rgGtGf?Eg1*bo?PXX@~qg%MD<g7J7vyb=.(33uClaa;_Vr=Z,+[aOgSxkERv0afK%pja6
.0ngfl^qsw>q6,(MQZB$~O8]uX|4446T7g+Qwe$UriV5CK|y!Yr;2EeTPodX8iLm8BHD2VytEcFSs?b<xCzdGWcP4d2%.ii.Wp&K
s0i~p8E7_yOPsY1|<!0JZ:IjDZ&hs2NhBh:0kI8<xRMUoqN^U.WEC+0>1$X?fB?9c*MOpuTtCSOFGpiMW[91ptyig8a:7~Z?IO)k
WVHmOcM5I@b&)R2<~epzxAH16j9dDgT5Hk4pgE2B]Roz+Pf.5W)kgMaiWj5=sv0lbP>_XY^Glb%<$+O~vk5J7(&2ula:qPP;!zM^
:T*W%=x40ryR(<u<]sDE3rdGZ1k3MRxRYL(gk9a&@mn.$c9PfcMugkRq;7sWsmbr,@SoS|tF1*xiG0nNb4^cDJS6_Se0Larj5qHN
]fmu7q%+NKey@Tk&eSy3_OHh2mN$eQ%7$,sYP|%=Y*E9eD^&8PQ[lL$Z5vtBXEa:zWnckD@d6BOQ8.Dg_9rr~eH>w+]88XANs;Q2
Asb~_(3*?;G)kglRfWWN.@B)+6$y(7Y@R.e2z<wMRtYck:lm?eb:EeDRf*y.&^+PSWhN&y8|c.CpE)~;l66we+d<|aJSpv8G+rOF
[*;N*kUwNPKlD)MhACJKjry8yCLrfiC?tL~WQJ@p:52<|G?uWe8iCo(Zyw6bh9)ruQaz|,hhKSpg]?e?NjhA0[V9fVxyAVqQ5n8N
cDIz=GVW9haw6n:Iq:0z9&9!~710Z&s6]npbp8eHlMx0uV1;:|9ux$j%%qiH^3Z,5k7ek_GYTx5a~n6gFKB+V7>3t7%S;t%pli<f
:awcL=rR|.ybUFY|l;geS1]>H;!r;P|q9B=SVqMnK!ZPmQ0Aa6,tm@%WpH<zskdrT+IqqP|S(CTdbNJs?YD&9z<Z7?(BJDFOHyFn
=5?KxsEXkW@.1;br)2Zj2@l2*C@X_bsMRk%1FJ!:a$N?3!:&y,F82m*1T~>(aKR,ZdV+0|=LO2U8KJt3tlK<BNb(8SIX0%icx|B2
~Qeb6xt>&4iaaN>9+J?DP+.5!M@%]q8UaqNt*>=s[8lVJGb)C>B4CO1]BJ6DxPu5%Sm=IlfTpKqxdq$@A32SF%xCCCXnf8.dw[30
t,@Nip])<hQ%K$]M<N]$cj3CkHa$l5[![%2P,Xy<O0yvp:Qh,mxEy=L6C@MsDL>KjJ[A;b@:2Zyf1qsaMDbN4:2[=LQ*.5ZgJ:c;
H&VzhD10.e%;ta~VmbKC)pc(Fo7KKz]&GuWt+r<c;.@(X0g]++WC=;j.]*@cjf,+l%ld8!Aj8POB4G*.9za$F@]UBY,!lO>UCFYj
Sn^H1isVlX7R==Q$T]!f57!I7>zoJJz:9,vG>*qsybEjl!F[]QTVAF9;maF79[3EcVaYo!bHqlQQMk8b(&w[5I]Q&I!|KP+bxK)8
fvdMA7vF*oj~jGWllRCLd)2[kol*CqMK8A3ifAQ.N_]&|rQPi.EFxwUYiascg@FnT??,voSY:]9aL*GhLJ[o[Tl,w;hB3&+nF]RJ
M]=Jy>>c0*s(,TP9EGp8VusaIl*A4>KGYN|.eWBckZtF10@7d|ts?S4=<4=5]&uG?91HHCTp?@&wtoUOk8HBMT],<I)|N^+r^6E+
;*F:7Pbk;p9KAM0L.jWGpZUir@x!5Uh@?xzL75YChQ|&3mR~v0NAmQ:b4kt&J^>^f8Zac_ZCY:YHT$5..Mrmu)R@&H,n.L*lL=)[
MeZh%]>Uxud$=f)2l9o&UdHBN<xlmwD=@cX>0bdF1<IFs!G%|JM+<ktYC4RPtFc=^Y;l5UU55=&bE&4&X(Dn2~d*hYl6|v~z~iid
$gfg6Xhuf@M[,GXdpiE0W;+?+j@?UNZS9^$Ei=N<?%A%5,t.ptn7MvgkNT1O&gkGaa3cj*9%qSDLp)5.:%Yo9CViUnA_[[3buQ>_
H:&)&tF;Cej7>w?:D|wN^.@VAFFMeSqp1m,m4%jVO!|O=9[ZZOsxFKeJ>lPRq>atA(=@p,Z=z:bN0uVT~Rf|TAT.nWwJ@W@,<1k>
6g$0E7HzalDhG|(%=6NOpQz31KY)M4c5zV^4]!8fVVxTl?dI%=U2wEsHd,x&IJ_I=Y%Tl>uOId|5:;%dawbNl>_Ek<uE524p.w*(
aizLXDjkvGu*)CXqo=0|xjQElkSxE2F:Pu4)+RkwUx?lG*C%<%*8M?v+y$Cso4;[ljdy1GTXH:8xxR~h?z;:F|JjUWOiuJVGL7^o
+,IXK=];pIEdu>9pS!dx$pDw3)m~4d0MK:Kq872d79oVnOM>O+3N@bs37BX@(7@DzjrE=i|YbugKETx2=2NIJxme]1C8Xx+I_cuz
_)F%sB+7X2$1K,3yzO_Q^v6OXb_J^oyEKec4(J5,ra8j9l%HF$:U+L|Bc%:0Fmw4.@sR[n!7Xi)^C0+9C8DqaxeI:)D@hQrWe$);
,jhq+5hiVwbEes*N%Vg?(gyrNpvBBOkXgP+9Hs(KBW_&sgyH|J)!T9d!*.^XKKOSsQ>JH7@p^P4&$y!,qwp6gr8w(0w.)v[KPu*p
uPDf=5^Az6Ue5(OanvjPN*~UF,$TSX+WNb?6[zHR,8;>7$=hxQ73l)Lv6;z5D73:4C]O[ndPQ@J0[W(]MV=e**D9]r*vdSuYo2dU
V|5Fm]R<8a94DQPcZI@!viOsCvhcX?$o0O7NvyxdN?G61b)*%hoz>n,nfq19NVBn]gMxP1eX~V4+iSUPPTc1csMze?MI6:Ri))Cg
mr>O(0:VZO9Q0kw^BnL1o_X2k&9$B4j**hxi5&,JVX3PZW|7xmxHmZSyV6FH1:|khSE3MU,VOiF[v~ysu|uzj4[a2q?;i@MQ_lDu
.KKGid[^c,;$J[O.>^%87[_|Q2CYA,n)|)1@d::yA~ycJ8P?]]kiii8Vl[pP+)4Ez|!81F>(3&.vP;]JA;Yxo$s4EX|*7dT+$fre
0USzZsa)tx6KfC*o+Xr~Fo@0QFuRXv(B=&%rK2=s4mr|+TrKOVNr$)@6@huYlz;6t5%i:Mlt]9qsw|QtGt8YX6=hSsy3BD2*4,vr
amxliZAuj[k$@3dBlk1c<&00oBRznWQK]FZCL<FQ_GgeevS?n&HexM_^G$b]MHPlH9qwgc*fWxZQSJ,=QDmX0CojM@*1Ezw>=CJZ
l;=RpQZOM:m|[mKMyG5G?u]CpJ8ff@HhZk[V%=R*yDhKs7U9+@@p>w?V,0<K:&[~GHovn]my7FE=]OZ56DA!S|maV848^.AnJlh.
fl9aoSU3Re;!~6|CN:@Uub1,PyhP[pg!S%tdJH_Bq+mrC~emsDk^Bo)N4!,;WE:$rI~O4ZStSVrTH!7KKW9h(<o&Tz1Pvx:Cp?R&
<>F<xP7tMXRp$aIw>eHM2:^Iogb3l=~dSth.&Iq4WNjOw&[IJDRp,D^m5]6%dajCP5<oq>ky^Rs<y3JYgTpJt+JcDz+y,_@gL&a=
Y]Nbu|lC0D[|:y*gI=d2]xpUk1t~v_H%X>xGkpAWi;mz:*t%Y$U)7Z;t5E(7[0csm2c&(2jM00[dN^D;]j?QUZ<Iv8eJ?l,qIgt^
:b?.%UIJC@MaWUm;WHa;a:6:7Y5+PieQc^3g~%%,WN^mp(t)C!,k>.O6pO;3^d|>TsRUB0H8A0kOWFOY7=3:utEx,zyD1VxT;e&E
CA8?*<RRc81,V<[5+cXHi1<$q])6mlCXx$42UgPyz?O|.s>@WHQ]NLQc=u1P3KZ@P]bxwBvMbsQN5?,3<kh|rL<8+dZxuTcMQ]1:
iX$N&9a*E41=Sd,7o59P<r4]Hjr+iD.FwO!;v^NNeK|S[W<2zqLT5K^$i]61GY@P=6Yg1zQoWn.CGJ*WD>LQMxDuNE5grxJouJHm
3FBz;5I*F|DGXrmw4~2Me)<!Yl7!WbITF]wLCWe<yoU!BhFeSjl3abQZJt~=IyxyWup_Y=zcq!$~3;wzq&A|2Ixcfrm)jvfovdBD
hRmnT9r9CH8o~74Su39uhVs06UK3>y*wr|O2zO3r^a?Rn63rexIM9z?u%~8<BhWPhBDv0)3?E4m=HvKah3wlKsp9[PFO_>(ou<]%
s=i2nV]Zt;bqK4()~fxR=Eboy@iVmi5zOxH!rd$tJd*[e)Cp^C[.?*|v4@4*<B_e~iw;xW$k+<cwQ_yx]DyK(C>DcWj0GWI=W$7x
W;GCHfu2U5390s9v0A:Da_AaSfgS&!sB*CmE0i3f0+Cmbi7IWf3|QkjB*Ijwi)(K,7@^7sbM=c2Wy!a,tM@VWR>=yp.,cE8f$WQ?
J$=k,@C@75SF7k)Omx:?=vR>E|W*?L[w.jci+oc:>$3;YPe<Z0+t%g@sDQZM5nnt@z1wj5hJi+=r^dM_I@~.Z$Ggm9gQarDz9O!K
,b8lcmHW:!8eyh@[n(!ymQq@q]jrUOFKH3@B>Ebj0A;EAOKF=iwj<40~8.,PZD3Y$,w[n$9JAE;YX>E|%T!rxiWae%sg.@e[<=*M
@l4pjcGCx=udt.Vb?t59.ThA>GFcjH~3U=+Gwcv;]v;4ObR+16u[PSGWeSdTwB,p)zH$Du[!%SjfMx6Qc]0AM<FbTFJH4ST6@!y2
k$4XBd]RBPzrMdTEeu_hfMx,H1!Ha,p^HOZd<o6nOZ?H&G73oRi:,xXh)spBOhr(Lr.UkKA3<[tv[p.FH.<2We8QZ^3@:@FBR&Nq
$jaNeYFvsEH]2p6Hho%;==fZQN=ye1@&clmYQ[NfQs*P7$^%|?oVO!DAT^<^Rb[u+5BXpIN!BuX5m|ID%Y::VSIe7);?55^zwGKm
P9g]b1qw2vSoJAP_6,ygvo!bGMB>;4&V>T2jnmkfAH8i;YCit.KjzE9<J6E,%D@N<Q:w+8ByB?H[33)+9&s?@]dC3y?10V&>a7oJ
8s[Z5>IRz]p,WGnRJey$;I95W?TbGU9rHYbcy3<<n7SyB>xD*ePewVHEAP9cK3Cm^FFd:^_V:~)_M0GknbZthw^Ml@9JsAcxs^Ii
GiQ5?b%G<NjJ>6<)%uk3jUzEf:Ss;|GwV(cuJxo^w,SQ(S(Y.[o16|XS_SO5v*@,Bv]WII;p1Z^x&,cA,M~$ZffOw3$DW=*iZNZw
iP)%HB1A:iUK0LKVMxqT[iGP4dgxESfpJ&L$3>+;EW*MbvqISUdeuwO!RjQHay9HstFE5k0m0A2&!QyOL1!,%%?9sxIXAukNjw@m
Py_CY=qE9vA@S7?VW>g(HU+Ua?3.EqMH.DBvPv6X|q2&c7qRDr]HAQN~R8rLS;7^Rfr^P5TrgdJ<PCKf$pS+q.1C2.iHFv[_oy(8
uF~(Zb<wrx~~ApMnhJ?DS@td>mqL4I,v>EFiHb^>MvoE%?Nfz.C*^tmgX:zd)%3_*b8R,Q,~&B8MmBpuz^6On45j~KL]VH0YCgcP
CQo*DCpsm=o~x,1R@p)<YYbDWMF2X0;b>qj3;(T@aopI$Bk~GZyS60T_xHB3Y[,G>L=>OfD[w|xiL+NR(QzhOJ5BRV>bXEx@?,10
=_j*OO)(Fap_Y,;T4.7;hRnRl?tqb,SFh&QZ6?l8SJi*$S%C?fQGIG?AlfRfeI)Qz*oh27Ih,]6uMZEB)lVq>[!p~NHUoSS|_RJQ
XP!L=|_ZGGyLeS.!NWeG?U>VQkBN::DB<ux]ZhOSQoSPazrqQq3E_0j.%6cl.zWSV1+|x;1U*CBv|WCt*%VCf9ZRH(boyPZLcCIv
ddpk@A9gr.&kdb!VR2lPa,]|NoH)3C5;?YeW<39]$aK0OHcA;WIAhS.bT5bV[r:~9JsNTtyRF13:c]j(5LcLoE_*yQf&Koqayi5w
V6&ls(7YRf%[Jf+.WHSP4PBR^*$0R|4)lf<!Iu>3m5DfcWpF([oI(29X:U0Ky(bUpIuwF7R$~&k0Im_e,E85Ed$i7@|U<R,oX8_@
>R@[qQ?HdRa?65z[+hdbt8:ZHbou7+:6z]Va4aOvd2L9cfK[|a$xl(|%;kfU;3u5ZH])rj:Z+N80Ryd+hRyUFD^aIB.*33U;gVxK
Oth>=.*i]Ch_*Lr0$s&*^Uhq@|91$<Jo.vB06:y0lJ0Bl9.er!Wu!i82c3Y<bW&do!nla(7YotV7%Hv4(,pVw$o~0wQp8+jA=z$]
<3ngkE+Vn?dW@$7%kb1,2Q+QMk)U?vzdEJPSa&t[ee_+8eh;KA,6$5aZ54(ZfEMXC^_4i)A7J~L)76]q_klZNNXE7Dmbps$9Mw_y
(UI|Pc~2|Djz8)=gGV|Q6D2oWn;IaO*FVDuhsCv=n<j[HjiCJ.;|zMM4pB;baZCc2=rx2w5huMdWK+Y[R9&)w[T%HCWt.s[W[AN0
vC&h+8fk$.0V<bsFkO<ncKyoU5*RiQpc*!PvfsQ61QW*auwP).DC,<CB,!ljY|qC(A(EU:BQP6_qjUspVR2m(g~LQ[Uy~;CKO(Ux
+.7uogKmlAjsK7cIAj$LCb3[67wiH:]CIxC&ikdC>oZ5W8$3%_2x&=wz++]7XLyYI@pcviR=bRA*1H@S(ESZ+w3|Kp85L7ZVRI.p
DXWC;S,W?&gkj8zmD=+)aqDC[_)%6QA?A9W1o:DG1?Tn45KXAun966$h9B._RD,+>gM?w2sjhC.mgmx)cOt+W)Pn4.cj^I7rQMio
%JSX%YCd,f@HL+^.ah*SY@$^ddc5=GfmkF2TvizVDuR,9[3);W)@<6TTLNe~g&f)0MKYD(<%3UiLWEc<^$|U;!BBM)%DH0.9l3L~
9zS(,G,;NRw1*+u$?P|NZtRm2^JQ.!Dz@K?7$cIzBO=N3kO+q=*(<;>$h(,7O:(1|iO%FW]F]MgMGu$ZKZr<I,e86+)eR>SL;?,:
[^21_U@~qfXW0@c<&q7sU)_hU:fgZ_9%0]mTg!(YA2NAv76D0btY@:a$P!L~TgEdUtwE4|MvF4?K(?:Wo]La]YH(v<]R8SAa9K1I
ESe6d%V08NXM|fpoiL:f;g|;%(hQ*x[ILh3un_zmr%+=w>Zj>700Ed<Lve<jY9I2@nl]|q^=_=oI)EdtTB8>dS!u_j>kI(LeXf>e
r?)8sHtk^Pw.3XUB^kVXwUi1:CHs8wsye1qJo9|(WJfmL5WbS%vMe=VgH:A0k24pm!9DRC!tnPF[GaQp<yxb38)euI*jm)7Sok@P
iid6.n(qf<qic:)78DoaJyARBbr$YoBE6Si=|&OT8N_wZp(r@<&cpI@^O0Pha00wUwNpWa=GcrOM0K7)pH,aHAN*qog6^!Z,[M7t
cB3F>PniU?2:n@6RMGtSLP3V7v~tl!mNQ[4hXZSPgUhjwrMcoe@ud3=<[PWD9hhve|exH]]52z<&(s^=S.7k)DW+z@H>l1Uw^3=8
x2%f:=u:f_cCyB.5o)038COI:5ke:JRSw]tIEe1w:eAL)PsA]ZC6npiif>vI:XZX]|>Q:c^?]g.pdM&,s1,p2+&la^M7|N2_*Te>
.9QqKy8e9S7>_@A=h3d_p[tZAgg9@o6xo5K+p2!oNPaJ$VdlwcWWPSDJ1R1iS6TbZZu%77NSvjP496]Wef(y<eQ5&!wxRT<:@hLA
B)ycEDoh!FTLIH0<LYg1xdoKW?FK~f4ia:(d$50ydL;hm8Q*WykK_EDLy]1FWEz&P$OyDC$rr5V+9d!nUYlq7<k5|E%|6da=5$VA
T[*vtnfw&F=PvSfA2d]AMAXskj)J)Yu&Of;j(uY%cUj4~u*~W+=gQ1b@~.hFh~PynBC7ry[1AH6T0exW3v7FmsABKnVudnFZCHv@
4]3kCZgkF_&~y~uV1]4No(=.;.Af0g6Ni9%Q[;c%VQMXBv!MlfJ.r6T7T,jI371kt97gM(4:u+Tx()2pPe*1g1xRw2eDgETK%xh4
!q+XG3ZpbL?Wrlv.4B3P!qA0<|HwG<klaWWykU<$kD&b7WCrN%&EcwN<?R|.Bm3.>[>[ZW.43(D$@un($4$TX.r*P?+QNlA3D<JN
2|W?obkEKJ*8RT[|H|)_x!sAG_mUEz(smwu)x~VVUr,%t+|X?1u&WMm=*[pK:keLz:y[@Zd$D$<I50nzANBSXr,*kw2hFaqZ38wk
[;V$~dFU;:dqUoXBNPQG)ENuR>EN2v^[;5Xk=*vd3PSBP$F@3i*jO!yiPeBmw=^qpHsE8?Wj*pge*0Ouvd@6Lz)x(Jk&I|!0]StW
2K(r?ut9Jz%~1)ofai@Fj,HgmS><9t3Rsl3k*zs&DVHf)X,yE)4JO8o+U4ArsI5uV)oSL*a6]i&K;W+|[AJ6.6.wMDe5VBzNWBkp
Jm]p2&6J*X,ED7$@9Z4ktiUFdSSpX~:dV*Q!@cl95I%Vbx$6n^X2AX_qAtUHwP+k$LWPIOR=I3BWY.RxQ^knqq46*g;n;f?YEyqF
_4^iESG&%^&H>u4,HwR)Kg+a(o^m0*r:+~HN4!;;pP<x;:~LsLu;>jO@3$!W=jZ0jJ?M5GlvX_t&Of|(W8TN_R6FO_cJ$6,RVRo:
=&EL7IY~5,AfuEPUlD$X(;L=6O3_I*TSy1my4xG.(u9_LKikjR0IkMl+JyFoHfkV9PAa.!<@h|;:DTkv41HPsb>|!<nq_Ux[zzR8
,[nnL,1Ho)l!0W<FPF,ZLp?&=lm*g85IV;;oZvJic<o=t>?fT|v*7RWNQ4B%>[R>BJ=2Y9D(;?;7I<YVVyp*_T)$OHUbxh9S,m@v
,XTMu^vx=f7srh8KKmj4.%C?NnmlA]fwX7SgH!7lxdi.4W)ow7T%7ssYe43glIxRG^+HcGh;BcjGa+5WCVDAOUw34XkXO5?QFQjA
87G33phy_<J.+E47ba(epZ+LNZxb(?QYtfW+:wtk3bO0:Jx(%a^H^SKW01J|oT=zM7lgnPAUll4oJ+i729c(*Z%%_Q89VgfNJm;2
XAc]A(Xprnqyq!@6:c5V:1Ga>]qJ5t_vb.O~Kl.5FOawJD>YJlvE5^Yy_PtsHM3utc$6H(szUCn_zEavlviN[7F9S@oscFHv^7DT
|^H1L<vZ.1^Ju(l2uxpvJJR4v!+9>Ib^E@Z?kQXO+,sEFQX24S@$<c=xFX,2V=gc8ZOH*w>z5QkwZNU&hcvrekbmyo1J6QqDhOoF
S>9$($L6,CRv5^t7fj~7$)0dc;9_Zwmf&o6=HQ>ZyW!~2;7WZ!H[GQY)zlRd^wy0nI@6LtccIf1@aFP:$koRi,E^j*S:9JI;H||%
Om?6a9T$@n%U)T[!4^TxL5S)J=k8~bv[AURXd6yVNiz_*%9%L8LX(CP@az=xcN8WN*9PO[Do[uh(Tk?E8NLRsFl9kkQvvuQRWFew
goA5cdgYBw!h5OHx2Jp!aSuVaIKnrS|KIYxLpYg)]VLcV3[PGvd21&i!n5ws~~BER?%o~5BLUpzeoGjGLInJ!Wr>A?wljtK9;XfR
SR%e0&rX9?9u<~@Yes&VZhb?t>lB35qH6dd,PzL2WRJSt60LcHuAeCY>X3<:1R!r,M]=%@~T.ymjYksT0xKJ[.R+veXYMtj[3G9W
H$kZy~,Cmods*rOmcDU7F(_XaN+fW>tgv<pQR!$rMjR6Q:B<l6$b%&H%S$1Y_FU7XC&H*8WL?2&&^fc4a]0,u@2AuJi@rKOJdS;C
]f5nc)(Q]R!Z:XTj7am5qz7FGW6G|mMN~R.V%:h:PN,lpRT!fvfm!5Cf3kbJa1>j%E_%]f?~h.R1$AtECyR7[h826cA;EOAvW9,7
n:g$6NBs;HIuY!tg?kAS&finmko0BB]>FT6NVobUVHWyA%ME.J<ntnEv7j;7?(LSCy%MoL<h3!UWRZrRz2jIO.r6o@~_aqqHrBge
ho&Iw2J%7U4r>q|R$@B1O]Sgm@zA_|GM4(E,<R~2QuHb0zVE[Ik>qQ&COe|wbUK:)!gluHoV2%4u~bml7vf)L@:RdGHfn&W~!$:7
~(foRZ)>a*$9_03&<lrxz!^t4<g_e7T[.M1.HM).wBbogd9rRf:k|DSBc@b>8t_=Y_fkDw+@9airY=HCAjDmB?>CV=N6UCqV,c4g
4?GjS_oZDMFp2>a9L!hVU+LqBPBH+AUhs6t[;JHzpFVTD2X9oY?Aj?bM)99f2J@m~;wT0amh5ayFR?!vcumkWc]p_3eI5^erAhGr
a=]_qVp<SSc*_H!TMpLH,R*VD9%n:f8D&*hS4+&l@LXY;AS_oHkK<HD0npP%g5|(gFk&ja6MGM,e)ok|TiFUD*&JnyrNPY[[GWmQ
F=LEW3<Yy|gQO~CeX*p2RZ!3hvZI6yZS&aVm;6o[4?0mFYr@yDawSDu)uo%^YjvYhS9GOl8Mt+6PmLkj|qSeNgRVmUTP)XsHm6$1
l=KIcunu8UTX$T)FG|Oi?N2mOqq%&bGGV7Tq,es6,Ohb8!c5$U$i*>8<)|4fsxk|Am0G4PL%>km;H?W^t)Ss(%O$4OkxwPWd[bI9
f^Mgh[Oyn3[j*SEla:ufDNzmnE1Y$sNy?TOumhAJA_z=zWCG)s7~z>Q7ZBMwlG06Yei+@10>[(1@30u+AAFVIk69iH6Dh7v+8?Wd
79m4r?8ggYIz2HzK%=+1~b1&JMkM&kII,60kpay+2SBm>uS**M$C06l))eh$SDW~*zB:GDERRcDiQpyvGDdErg9aF@NuEK1)!BiA
9BsO)PhxMlfW!O|mk!>kev6|8&_QdF$Lkrp<|;!Nm2R[r70vD]?(:34RfRP,G$*4$lzDy]9058~a;=PN7R7nDA[s<D7Jpkki.k14
~80L4C:iv3Erb+93ZH~;xP@%xrp]%jKCP*X?0?![~.>mwb%M!pNcU0k+GY>&CYM];VJW[=EIX$CS<:(S5Z<Lu9t:QizaR|?s*Xz4
%Mm*CpLfN8q<GC%M2(!r0q,A.z=kf32=U)TdI1(|6EzjoIlav_.2w.+1C%KQ38Gobs$X;bzK6(%%&E2;K57Zt^O7,P&$hvKl^j;9
yI|>zlAHu6+k<J%,+:,+EYRwmtY<hmdgmo7P6tAGY$EY*[l(pfv*:|GDHKeJ2SPaor%x_tU3yR9wYwGzi6XU!K@DPFH$~+PifzfP
1MZL5o%hA1F7K|mRYEFuK@WTXI@diqmi8~0|Rcr~)Pw2*tYKyVjcl5g$MFRppuw6!bk).SVC82zMakX7rvM3xJ5L3wQ^a)712==x
|K9APLcFdZCW!rla]_grFA%_(skFbgvfONM8<vA|t5mVJ3@.~+<JQ^1yX)?1jEGfN?BaoB2xuv_awVB?,(PPo648Ja1>+S%Fo8)C
<7&kOMJvaY2:OW,,O,=pK.lwG=gX7mUOk[2JefSPa]_RKd[:v0DmFeeA]S%IG03+x,3&6~]^80BySeuE3hNdN5eDjuRXgj(OE5Ce
EYZ6Far&U;4fvm&L2ucMJBO?PMSyZ5qm^RnO8Wq~1&:*PR]g^A,G:%x5diBJN@XjujFDojE(q_WpKo@;F)RzJQtGF3u5cg02wsUO
WYoHsh]s.Y5dM*oT2T|92,X&A]R,:I,rB!$IzyvK6WSbwBslxclKOt%.?:$Qcnw2y|h1CK$4wCGhX&c=z$mu]y5):]@q.&UNfK(7
nN5c1%.aY>TA8[@BRk,<~e=]8vkpCH:kI0@$~Rng(yciKzOsCe)>CsH@,y(C+N($Z])5A3@PgWB~tA7.0e!oaqAlj$MSqY=,Z7Z,
cZ_LhwHJoO[s]phCPn7BUZ<kJ8s=hmv)a7pK7OM;C*UjM|!&4DwX>,GoTBS=@a.C5M<@8E_&=~k4O8gJRr)8dUieU)JQ3!h,h)d|
WUa:bHCtwIH>(EL8k=mu)~UE=vu,vE8_!P&9c|@@k%|1N[.;E2%H1J.(I9kP:CR[0Kspf+2sGUQw]3iG;$V><Dz<9Evs$:m=wNHW
iXzZ@^]<m4w2Id$0VMY%EaPCNH9*6LAl~m$nlY~Z=TadTt6x%oM&Ec>^+DS:Y5Z=q5C.s$6rF122mxbFn2hkEe&*4CodFZ)2qQ|A
F=(6E%Fs=^5w~24jnsLJ[,0oi_ye>T2Ouz4.UhT.UTIH8q)6RLE.dgptiZ(]<PQX&Mo)c&MAVGw$(J?rri48r%HgS)&Y[ALn81G<
&88C2L(k,h|>AX|@lA0p(N|mOy231d+IGVatGEa!,tHos>)Fc,_0g?p)[<|YO)s9]!vCP6Q&*m$i411SZ4Hdu9GE28zMwU+kk3rd
f^|P&PdoMHF&.R4vo_4s78KVa8,bW(Op+Ky8dPGDWN@5~&pT_zJuZhuanBN.4^OSHrT[.+|ZoS:0J(oIH7Ha~*Pl1><.3~YE4$!5
?<G~![+*8|I:_*kV7WAyyoVg@Avyuq6lD<4IlU[)_vD5y+GjZhE0aEkH^rno6q6BRcMKB??zn3!tS.vOV(2I]Oe&r<p&uZEsSQ9*
2xj23S7f?W~,05v+bm@2]FlF^>([1icl@p93bkQ)hqiI*6Y.@zp%?M|0tq.>VHH[<:4p6ZaL|~[fGdXKooOIO(3Yeo|8.setpO7m
!).2.1E(i:z3!yzRw0ERf(V[JH0(db).8Ye,dQ3cD.8CYi~w_&A41!dn~D9DG3svqx0qB_VOeeY&^pF?IAp&*)QegKe|R_WDPk.J
o6D0$V;LvTFYe_Xe+~0ypuv*sHaUYev;5~G6?=*T)R|ZW6!.e8,|FxxPDgVUFw>,S~U3*MoM:hTf=0?D18CiQ|;~KkN$!xo]vwQM
AJYz[*!mZn]X>.y=sE;6t|L4)RR(xTf]7SS*qx;Q[Gcvs!*An3J$8K;BKHhG4M[1cqEeC8wuhy:qi4<eE1dcce[<L=7nlGUgImH.
AGLEt<nP]vSxZh4M@,iKi,u:=OWuHV@Uq[a7KG8Vq2Pa2~+_D@~1q!t,bkT>xPP3ozC>Pw0l]BAcFr1^zX61>%OJ9w85>mKiFbn2
g1:<@Ja.9^BN<0HATT*Jc$%Nau+TwWEg=l)v<E)G>2b3)Dd8GUhIiTJX_)5?KpL?^Ra;GdmqKim@:ig[3OVgJcOc!Nv*]r&IY8cd
b^[yl]@@>.5>RDjE]~Jw[Oz.OiZul6J0kNJob(vy?j+xIYBYOoaj|p3X[TxW>]mQ96uxhx^rh8~ga&kDH*keN6I%v)?oGnI[~dQ~
*$jAlK^3$4<%<[@cJTb=9eeDTs,B;w%6s;^e*^@Ek[_!i0$pX?K4,S]ya7m:O[fy$HNHan[(@Vy6V)kSUoGZ?kK_W^(:nQ,Lha:4
UtAxnK0>:j%Qf;eSeg,d2ev3S~TZcOm;jVELBXosYmouqO5%oy11EP;8>MY3kBhf(Ie0a!P]H$YlTzuTBdaM8HEewRCK%30<CE|:
k:k:7minRnX]Hkr[_:RN_jLrzO39s)Kv$wl%z)FdE:p)NHS|f5My(3qiiqnU1PF6wRSPjC?UaVGW1?_]^,+CAWCTN06tz&O8y8xj
(@CYW63]P%:@idnp$4j?a%[]$v,A+g@]0DN8f3EB+@OZP%K!urlgk$^MQ4+IFiVV2AWYy2IXY|xsS:HR:!&5+:Z~z,>6Wt&QsiNc
.Jjw+QY,@seBO$aBT|[OCsFM<Zz8:iVJb|U7IfK+l|Y?_DJjI0y3]fb~KHXB~G2E]!oVXcBhN?N,0$t)B:P3_a_N[~1y^dy9AvcG
S47[X8zvm3SKL&tgSyk+>bXXz0&o~hTPNlVuAlJu&KbuuToc*LTi83M6(+u>O[*s>%CfBh3IGSc]|,QZX[,=5Z_|!3ne[VXZbWUv
?RRZlNgNYgY^WS[6Hl3N>)<2aE5>$+n.Gd6@c<UY8B5q!Avm[?)DM8So02P(C5y0:noSvO?h)_@9<jT<64KZszsC,j)QM^UD,%2c
5JXi(]Uozji(BG?O8HE2*D[,7mL!NkgeS](pKSlvq1vZxr=:Qw[$X_>ix&)&OJiX.|X=.gV):C2m;.*TzOX8cL~ZJDF)f.cbH.ak
gQ6H+GJ42)n%~An1ng8%vxE8.:=pa[oYE*OqAzZl]*9z9sbWa)BV:3$loIvC3>kPtxrxsO7T8oELkU^H~lZcFmZGap@.2uz*$myF
$c:ocMb1^13HQ+B1DF(6u<Xu@h(geRZk,>ZBwwl[j@G<mqn+>Iw*|.8:&l]M$Z>mn_Yl!e%1P3XmfqK|=KKz!S>,^Qxe+7hBK?CC
O6ORWWzZs_V_(BYZoE&W~VM7N1B7@,yWH1&m7CP|n:d=Yz<DqRs!|cWPeHr3)zv8Q9yI;+v>e)3.h23$Hv][Wfh,_o8q3aCY_>P@
!WqYC12>ai2XU[_5RXI>Nk1jS>xE4]|h[dWs_0l,5(~UeQjh~rS_Na(VSTc^XFtr;<J_Xv[!ua=qP%xH2!KyAp%cwgMJOj5?vr?A
11@L4J>N7z,xTI$K9*RG^LHR3o1mqL<UX^:Px0nEy!DF[ulX7lPp(J4$??XOD]<TO>6Cd,d,hulaiHnXHn[k6<Ad.aDBFkY2r]i<
DLfBUJZzP89)xvYdnPVvo>9HQTYSsNm9M6bEBH0:d9&2ZV_NuLT!hxD2We@[^zXQ|bn,tBR&ft)j[Ash5=5aHo,|cLNMB6;R>.Sb
hLh1ZQLyS137;:4e)4o,g,iB^c2:41O?&L]1o[.NfCQgTsx[gj]I5J]jHbN5sUO)kSBm;[LEA&kK9!nVU:s2;;R|=JK&])PtWjE(
iv&[hxVt^S=pufFmFb![M%8?V!Aufio9pXY]yRGMM;49:CrNpjf,O?4f4&GvM;ER8z%bP)t+|g.LceBt]ScQXbHF!S(uJlv<PWhU
ErlC5tA.;yK0tD:JzmZPlwUV$W8MD>.pj[_21?CaLxEB05~d?h=e7<BU8u8>3?u_bA>:w23?&N[0Gw^~_;c,oQYcMKi(0(W;>Ea&
TzCqhMgvOXEheWSdl)@61FX|_AF(4xU+J(IBmrFzf,d4|Uj1D=Ipa7dG5JPg3~D[%tIWhcC5+GquUSc2Vau7Oa4qcsiuqw:b<_?(
3G?g,?F.P1@HcBKf19bg)bR3fK0lrwPAPXk%!:OA$9yT+7LkIUVPJ!jWd?k&pNd,(0_%i[O;IAmxn>=mm&qdp?D3G5mHusfp!__o
aNzn=STv~Ab*W%&>codgmJFO6&>bu?BJi^obkeB<obV;Q7ofp_@lZ*Sk1sGkz@ghZhHG+d4qlyH@?6i*R$Lj6rM]*v7:X6^IX<%*
>r>;g$81j.p%8&<:YfL@KO;?^MyY[sjI5z8IhufqW!ic.4Gk$Q;(L*6d)=We5FTlW_:kSUxUfw39z_o~?5+|O3,[A00b_O3:w]o;
4dR:DHGVHUJN6.;+3&VHPPqJ[a8]Yojrx>K.Zx=TsR>x>EKQadqs+z$Yu$Yw_kEL|0|Fm)O;Lzt^=]&iID~XT8H*u8[B3<7A)iA>
kJ$Y[OI@uvJ%3,9m^EZ()FmWz*QS1[?$UzQG=Ed$rvF%0~bPwSe0O73pe57%o<6^~idEF]i1:Ghm2&<$X*loQ+9qe:~@u&m+yf$O
D_XYQ;sA]!2,]Yknf2(^OS3c>L~)yNbvSeRwL3&YqGm]I3^MW%rS^9q7W(yg9+hwH<lx7=5Q&,rzY8RQ8i^RwTigri@r|n;coaEI
Cip9^vE)f:,07)Z&eh4Rk6FFyvvU8zUi;d+Sc@)3:kjHTp~D4fA@SvV7FYENlS~Rcgwt,AcD]HF(l$hTZEk^(O@f_e3;$t@TfHyP
5XA<2Ttg7_4?[[DXUHr?(8O?~iycHm5fhTBWesu&4>DNGe|XiXnQv!h0ZH7[=v4Uhmq:zqJEh,wxuo(uy>]cACL|Y*&&@uo9lN04
8!&KuL69oXEKXqxaof!RZzL(.kf_44gGw|jT>R@pKDL+.):>aK|1kN%PuaiIVy*%%gEw6WQ272]Xd!hNz:H]?R+Vl!fBjb%^?m(B
S_,[c6chRii;U>lUkWV!;y4=Um6yTPM9eAX^;B&FjDM!R901KTl4?_nmg^iU9Myd)L^kAzh&J_4;Nqe|8RRBQ^kbwkX.?*)rs!&|
rx8Wpkl~bFOwq]]sDu%39Q8,4+^OelOeX|eR(~ckCru@,Fz5CJ|t&^HYZ)DYxH6$q;35T|.YzG)7,MLyS?kp6.3k,e<hVe)4s74g
QnEQ<!rKXxm8rWJ[WVtca04!dBuBT;jP&mJ5G+b,Wh_RJscVi4K!k_E2xL5E2?8T@=UhkW|0Vy6U[&UGUDk+q7Vkk%s;Q2YcecXB
<7O<dQctDRB33mx6@U5gpnd2PVU:=jUg+V^NQAZk3R^a1O.nIEC.XYv(&iDDYn322pxvbVO@$6:<Oy!RTu:5r2vUp(^9lLxCvVGr
,Cbjr5yJ6*=7~5L$r.x)1Kw.)rDdR$Gv+1Y7h9=?4VIfd1A81?ODLZ)dJlN<nZjw!FD:IjU%u]zgX|8Ymb?T0ZkA%!|=^n+tV4L1
wWbN:rH]@D9.wXC*|].sE<|B>t!I(MiwX4cB|mWLz2hl[TOa~55T%%p5o4eQYtY2*~>;<b*?JG(V)i:G?>jOg%>dKE3UStk?);QY
69,fPL_d9.6+_9njYyj(Xd]N0D@mwZCX)fi8xT_A)eqAAW2$rIB|Y[wJ3td+BHDLUQxyD<T96eOWsdwz[A_mY.kvT<|!bs@5:_es
wr8D[<(0>?cm9,riv::,P&*e=ZU1+a?R=u^,wc9~@vH)Cj=$FVTnbP4KGp!@5[vaHPcjTvQ=[%&YMnV*l9n_V:mb:eT|GH,D21K,
!Gq_*B+MU(JJsHoWgcvaE&vsNQoc6a0F(zZA?SOrm)lwR%U_FC9x0]7oeg~X?SBNC;xQ=<.%?:ZkzfWK=Tdn6;|S8ZWfJ7P4g=3,
7.>jjhxCrV%uvIPBcS8,oJZ=naMSjy)<5hS1R?Zn90|;Hcv)|A<3i8Fo|+nOQ1Ke,~R!ULarK)rP<a4H|G5(BUEFgFn_g)jO)UF2
uP)%RrV]wl3y.3iSQ1$Tf.LyOwNant=G>NMHc!l,Bi8iUOpbQwIeSmwF5!NyxNdc+T$Ee3^5n.AA&e8@q3K.7qWCK!3<Zl=]9j$.
C6*SN]C~S;I!@qepBH6a8V]zW^%wEr6((<Fa@Ehe0=uIQQoLsNvD3MyL>emU>F%EdN1|T2=JC&].jRet):C&2aUIGSgmKUAj[ep7
oOkb.TS5|FOtcUwoP%<lFNVdv:U~X&f0pLEVw<9q@$_5~ho9uIhmuP)!!lbH!W!6cm4egt!l4,>7NIx@flakM*>>;PBKE?Uxu=g?
~?WFdIA@W69@Vt!iWVf8NB[6?j^J,RG>*D$!EH7A8sEz8In:(2$Xx<Ncb_xN)4bJ%@TD4n.mlKmBjBj+8)yMb9kDT79mHrlQ)Ev+
mwWoo5oT?vms):>UxXDqMk<0u]tBa:h;)&jo?NNDZB0Z8pzf]|Ro&t)%fR*n.1W08JGsUtjG0Lg=B),AYAcLC]&DNES].gas&79x
t=gM@nW<zr,xZyO?vMHZ*4:[wR*k7bduruja.]KAAv$.Ul.MiEZw5HDzIB%@kiB?gvo)GSL~>,@.1?88$rcyP&qX3>l=6j*d~ZB*
W4wmB:h9e~22<x3P,vu<vo,P+,oucs~|!,?ymiZI>D^yWis>r.5)1u52,RL~M&qo=6siRI^U=ZOS)V;w3k]Y%rcfW*];g5f*X7&p
G<:=HbZmyKi@UWkRVzVFb)!B[Mtj_Z3w8jP6PvfX,^he4:!)AicUm!3+~8HfN@)sL[Kwlu$E?=[[*MA*XW;Pze8&dtk<I5|O70eX
KcR@)3VJA1t[29ko9:6zkHB:Gt$pVO!+wjeJz.?a0zSz]1ECR>5|mo(<6=|KQp+G;WWZ~Dwl7^I=C$7Tf3O*U]o5>1PRu4(Jq*@V
t6v~s;6~Woga8P5,%xsMmvOYn9GZfPk_8KpCy6HGPRYJw]F.70!>]dpsBr++GaumJ1N$3LFdJo:oC4y0YoI3f5(*ukTW:)=N1q8A
AlXCX:iUMbIeoq1*:j?:cbVS6M3=viWhLqYv;g*V50c$8h>2e37mVYY=uWWTXF8k9bEV<D_.+qt1m=&[_9()>?qmp[UPeF+$6QE>
hR])B9?cm2ZioQWpo1cdMs2N<gVJ+=ap$XbG%Es6uRDIc9q^cMdg4n@v<E]~+MgQFH:3b&A[sz~|7=W=mB]s1^L4T%GPVlzlJMOz
WLk+:TZ7v.(mDk]ganyAR*!=hL_W*6~PW!+sg9[$HbEQvB(oGSCR2C0R0Z>^;MoR0ARG*v5HF6&8q6_t53aiz)xALy?70K|Iepe0
r?ZG+OJ]G%QxPiGWKwsY~gR^E*bU.g+[Q.:IOOwm83lfBs@;PQJ$b1[3WI!Wdm!fxIMEQ:Y&twckZ67KRRJoZb]rlsEVQ|[Ej6Z1
;kf&P~AMIvROYjP4h^..xP,va$4O1RB:L!,Z?g?;:Xk4PUvoEnD9w$rkw.+ar_5ECAOb!V.UygV!^H]JgBN3>9T?%WTb$_I+AKGi
::t[PX.N9JbkZ&,c=CyGy~1~t9lhbxI?&ny?,VQ8w5ROgUL1N!8DfzsANOs!ysO>N5)hwv%rT_xzpRtOfEANca:bZ>J2xeuO7.3X
L33]aU4(%shL>Ljx>kb<X2k[0BiJutj=GDiH?EL@o^Q,g%<[50r&dw~1z3]NW$bo>vtRHF(agHCm8baMrT6!RCqUmsXQXe:U(j]:
+^<6:P!1C)jOE*FPi,^kE?E.q[j!6ulT__Xo,GliBqyDI&sXnUa71&;@.Np3.EE)&)~7OSDcV7gEh9t84,!ULTGhySs?nyMTqb9*
H|KYffEjL<<@R3[;C$4^&lA,7&acrSWi)mi=)3X7BOLTQD5|i24o(M8&=nF7vGorg2W,AE(H7ylzmsiU1V2$Dl_]$fLf1lGb,u%1
7obkd*b0cfXHg&I6>d88%.QyxPXL1=nS@v6POD?0iY@]_XzbqZ|1AYN4py23]aVyIzf<tR|v,7[+rx9ni>%r7JS$Ulol2ZmwgNbX
oSRf$B^:CAh]_g@zjv+fSF$_p,[yra2.r6868%d3UKSbDe?yVWpa7YM[>FDnHyP[1(W~4lWX=9&rRnA@UOXN&nWh5gLbFE,$@+c]
%=!|D7*n6nu%]>HFB<=C:$[6PbAnVQtG:eqhkF@g38VE.&F.xX1@4FoW>N=g[]k=kO4!1hr8YT=>Nd.BYD2S~5pp$xD+xK3]G3&S
~.n7;6@WAC2ci*wJj?;CV:7V>yB&?c@*?MZln*RwyAazYu[qbKC4Z)]qIxYT<;g:6(J^t,fg%0$Ne!sO!^|!T^(qD,)l,Edb6l!_
&T;(_k*TZX3hs(K=g24n|jeNvL:h~wUv.z=4t!xc4,x!kPb^lD[z^ADPM*5[eW@!]qrrR+UqTG3qRbQz*jlE97PtaU;F;w)txe~>
k.?56(XTaB?EO9RJGB7qS;49Htj%VYE+W!K3FG9W,ea)XUn7.Q0T]71wu9&Dp?Y^;_es*KQHakOD$)Z4,,TgKzMoh+vq4SvE1>bP
1HGJ1+E!JK:1;HDKZK.xRnjH<2a5!CyKSJ3PQPxs$V0JS3lJv005jLE*v_NBVlRMgMSE9Tz8OOA.T:l4bM|IK1_==t(5GOrKq%wI
Wy&XWvfl$9yHKTOywrl*9G<97Eauzf^>,!=zRGJOui7k!4q,ZpYtw1B@uD1Q_9[c(.n(E0^n^%N~)XMG1asxiQegt8AHFgiYJUDc
%K29ZXxExT<Q]GPu641QG9OaEN)^<+AMc)Mz]RVvsXq~AazHY)uB]2HXfMo%U@w+:[w.L!<o2xzori5fbGIbzy^kep$vjG(i3p3e
X@:F66MK3KP<fma+wSRAC47ap&Z[MB,*G<Wi]>sfzx?CA~BHW*eWwj(]^GV!,C?&::E,ccmDNOco!MamP*UjPn%Bm(XAA]_X,|8I
@~W64v1WulhaQfTLQ$3!Xi<DL,!Ul7p@fP1yvtr<wvW[HK4NY1yML9)*qy+,1?5.eB)dg;eFF:AH@((DyA2SUJ1sxIS>>jMl.ud+
%B:X8,Y;FgCF6B1TXhOtolFY+IL2b@]Lg3w4W6.EF3_Pve~lIfeeqN[m^k||!yii*.ujaM|J=+1.P]2z!wI>*,(@?nV)5rgH3%vj
gMvo+L6KzJn:JCgq]C~q>O!lh2kfo%rT8W+K6M!Wtx9=ad~|ym$*E|?J5;.b,WLKkz<pJDFjG)tYU6iSwS2)|GB$Kd96zLlAn,J;
P=U|=4^90vbRN2FXT?Q^fVP[oa1lp%mLEvItVdw,08^aVKoTP4?HCinp,z)jiR(]ZdU.8&D[(??ouZQ5,~4]G[LM:q81ivl_!8xd
M;S*DiL)5C.p*Esj3cLeKG!$lN7WSD>CdM:gxYb0Xp4DmhS!YVNh.ADH_+rI|sqa)L0XYXlbl+tLkNLrLfi;fLgGym7TY0]On%t+
r$>z,4sBSNB,UA)yY.wH)n)gPsHC>q:.pB<:5UvoYW=!b(f1,7Z(__R%PDwe50xXzO>r0:Ly6A!*2G:xTpy^[7WFtA~@*M~ey:HH
Mk0$ZS0EU5B$[Eu<*.YKXz>iFfjMFXglK:oiM(Hl,n5WVi%[4N(3v?2,1r]GtD3CPjb1KxA80F>14Dp7Cb=fU[(k4Po2oHEV(yM+
:tozhb..bD89g|qxV[~f,tjDGx5.&PchA2fYs1;o!Q2.YwKy5svR:xfoC%T;XP5<Z0q~16H=_b)wo+K!%zpT52iYjYp=a=Cit=(X
b0~7Zu;tA4[jKc;_(9I1x6w5;%74C)Pxd4W+Z9te3TnYT$;sbZu,b%Q]D$F1Iqp,gRYwVzGCWDVn_F%uAYdBTR$==nPFQNP4k8Di
NhBHxaK+tb|]A72m,;WF+qapII.L>Q>DpYPpq*2S54tD;nz<=]?jgKcJLUEfn>pE~H4tpWm4FhZSp;sBFIrmq!=N%A^(C~>exgnK
DE*yi?!Fp9J:,eDSLf&1X9i8;WJ3hlp5o8@nP[*yuO,*Ll_GT,[yy!W.2;ZJH.nsCTlm$^=Xi@S@qSK9z@Vv3.Wife<f)k=^|Y6~
Ajen^x8~LD9xYjNVbnjQ[Rg9bk_W^vov:EJ7Z+SN<]e_GRw!:NWQxy|y%:+q$Yqk:TQQ%EqT~yGcXHd*i:26Ae^RdQ7Bj2GpH[mY
Jb:mQ5TI!X0[tEIS+4)Dbhbm(_G(di88V8&mvKSV_:lN?rB%xQILugm&cX9IlV7PT.4>SiM)wi]|t(?[LKrgLVf%>Hqyj4S*^+Dd
kKFdt(V]eSmqvtiGT_(C=gitzL?[GYnFfw?cvU1s3Qu5OR$2D@K7ush[$depasUZvOpg~?6Uku~F48O^Zcy;.<$m7Um)HS]dvhe,
$jAAx*m$SsJFkNZ^Q(OE)Fl>>7,8rA5N0~ZKP]34qW?QF2p(hb+wJ_cm_e5Rr,.46CX82=2vz2+~^b~E,XulT.p$+g5>l0HN7aqK
E(mFQtV+TqvA~d1vLJV1Py+kUp&pxezc;5k!X@)9O!1HhhNq!jcW5vF>oI%Ci(7_)7?ab451.m==[SAhTh53B2VL;c6UdkQN:rVT
w|,!DOXUUws1s@s,.N(]HY!S~~8,FIfhoLzc1tG^^a(sCs1E!G4Kz8qs<RH6q*WVEZVc&eN(_8vJR$3Eke^1_Fnb@S;O:%pwV&K^
I8VyHPfSUGD9G9MYBEQI(_T3QaJ<JZC7iZ6sK=,rX^%32A)6]jn2ofhr<d_l41!Iw9G.H0tbH@m^i3v=+]%=cNPt:fQmwU7OYN@u
m!jO^5d^DZRn84NV.Gj*br<S!YVP!a2c+T%U3tOXfq4cE1[;Woh%09pP|1k<:nD:q?wwS_Kc]QeGD^aF9wJkXD%M:YRLA8yiYxC&
~.4mTc?VOSZ1IvTDp=1O<jw,$rH>KocvY^(,UU5y*GLG$@lYyu)sh+lP]pBe8Gw*Ze&*Co5!n@?lS4Q5rLF7L2nbOl?u)zp6bM$>
ik0hxQ.NQOJm??r=CpuJFH=Wo[t8rP];Fnv*o:<5~jrMOPk3WCeaq^X8hw0ozVH$l)ifQ&zdP|)!nU*K&yz2$x_(KfyVov]Y)SR=
D7+54i9BSmNBP^7ROyI7U6lG1h9GpYg~7nYRFOQ7U?I;d3mb1[k(ER8cq~vr9Y7^;*At[_;c2X*rW^pVq@Q[2r6qsV&7CjoTx6F.
Q7ixQ96d6_sK2ixcYPZeb&;9o$U@4pkEwi(oY+1V.a_>5Aw]Pf2fGrZ6SoS,^A>YJEOx7*+Op$7Lx5S[5$RcnninGywY9YkGuG^k
:+!)Z@Lx[8t4eZ&W*_PE(.0|MSWqKIw5qwcCfYAusb,Rs*FNCO,U%:2Jn:]<i?+1w)OUQ,X7__;qZbll(nt@YuN<4_Ff|Le~py(4
&0:[wZv30a~CFhy!i@b7[!9hrXpG~[s>f0+~s~t=~Cn<I6~4)|3u8ER>3|hs7J_1uDxgWG~:%WS&d6nhUdEEEzUiENH^dOIsT^EY
>BSH34|NbyH(+ugT0v.jIbHrCg]GPmtV0&Tzp)?h9ZcTmN9<aUNkW@Ulc!K~@3XITq8[g@MFUL,Lqk!tKpw$|zs37)C]@4.h7&<;
?^s|sCH)j$[ykh;>a]rzuR&]g)bn?UVQ+gL6JE0j2wdDYIKBKCJH2MIcq.FoxUR^5&!<9a%_dO5E7K^NNJ1M=Q%8<BViQ93L7Mhm
E5:7$ZjO2y9t3A$[Skiy6Xhg!:5hx7(e3UeQ9pEnMhB?wwoq]5m]Jv0h+::,F+$*B?3)9n.+gt_~7;JxE(HRV[4ZEcoqP%?qFi$:
(@m)=PmpUxci&c5,:?7cQX5iF~:%hX>j*b+Qq<(I1fj*PN<GbE%yE.2|GR%PV!M+YmoWlh(8%h0G^3~P[Q,YrMsVFWf!GeQVGjy&
1guBPz<G?FZfmDt?ulCN2U%gdAvpf?sV>E8Iei8TYX[i%o((.45mAL(DBOJ$A9XtG*i+8X)=JaW0.4Ztvf,sS49QR^z|Lr*peXca
5qa5m=~aM^u_tRh2QN(3HCBtn[XQ0sMuxH1rbk$(jZt]=qptguBWewqGut+dSTe7e5yH|)Q~tFQ]&iIpbUlRZd7t0<;6!>vAB,Lo
Z.~p48Tktn[?ZDUlc+p>F[1N+Kne<3j5eDi,2W64pCriR7LY,h1Pe)&>5Y_RK(Oc!=FIR%%DGjXmvJn~HX4!zO~%p3kMYf6aix2?
PbvDwuO&Y>eWAaLR0E@3uNn7ZjsN3*]s:H8j2Qii5a~E^FquwH9T;YLUnVNjTjK8xSmoHTASGQ[<Uc3|C[1hWfLU.n,Mjx?,:Knn
%mucls,Y[j:J,lw$s_u(0r.zK:^A7S[Xw2Mji(Gyw+?JH4G<n%w5?odIEyBB@;.MayRp;u5ymX6C(Qri[Nl56h<Uv6q|d)Nni3fE
W?l8LE+W!8*)bEWG2@;=OnJ5y<uw)5d(>>%o~L>B+QmFch@0=f9|la^+yQ@uWE,b>]Af&NGuNREmL|E)Ba?(UjqIHCAM[8lBC[=;
[V.3u>6,MW:P_E:vzA(?)]aC|r,6z7AU3=KD@:r%A[4:d<~aHZB+>61Yzi>MtP2>?=1(F%w4D_y.Mouk3U(7KvS~fx87VQng&bYC
H4FsL]_:ZcxT&LXINo6NWI%BR%4^kiGWB;R=b9rY<,?1IsWGZ7cVmiXJZpFdKV8@lWKPGpGYF61o6PmDz$aD]hd4Q^Ib+F|:rZb%
ow^$?h(8[%t7QW1c2Owx~~2xU+Wk?y@L:Ga*MI&r9S:BPfBzbkmfh6$cM=0;YZ%a2m(&eT8@$YB*f=jI:,7_0an;E6lfim3xBISe
8vcp(nbT7%GZeToh*Gz;>$xCXGKvnmFw.$]pJ;028V+_.i*R+p,3jPu5HC*9YZGWqAr6NB(BX7AW%%l@CGh[5hTvsCj)[44nVVIh
VF%NTTXPy&.[g;i@I&>CUvYOj$YPRd;l2P+vPO&_O@PAr+4pBhfz~ehZ?aThB:!QG[OqCLd5;Oz@ey;gK5Xb2(MrML_m]iUbI35C
iWC(N<PD|,giRsks3R;^+W*D4b8XSbbhyA7GBY*)gSEraf)ofhF!)pD<(CG_L?ovc+5zSEv2oew]b5+Q6UylUsCEZ@ILI0O?y@x&
Shu!kFU@|(^HD&l!Z^6WL[?M(%0;wH:Cw|oyVI42&n~69Y37AVy2enp%w!cA:4I)Rfl8>fcfu.;x9)QCM:B.CQ8sml[H5JgLarBh
abYXGdh[UhGMOfH1US|49g2HRnA>L8XainpOoc6L+,Z4~e+nuN*GJBHz@oZcpgR1qo7c:6Z%_B@Ou7DX>:ZW9Ah80v<W|>iu_D:*
g:!QA*v5>LM2WEkv:e1E*jB5XNq<y|c,ZEcAItTuwv5_xLCGdA@Ci[=h:_W?vSLuK?dNl2nc3xtA1_s:X,%<avGTs|JFYY)lS0KH
1tZsYGRfSJ9JH75JpyYp),|Z@k1jlJKIpaK!@@>X4pbqLN??BU*RjSN|.$^qA1Bna2|vu|Fc8.]>;Mp*h1%_~P<WZ^u;e0@+<wF3
e04^[9=o9m.+:1Q~]@^VZw<ku.Z1X4l_7<T:8E0MV=7.b4juoe:zba(OY,A%_nuhj+k++uM.a20s<|+s=^Yihjx[7Z+L:cmptI+E
Mq3+Sn&mtl+T@zfQNS3o8K3qYYTB_!vzF5_U^Odgf_:xOL?<.hwN>O*l_v|_d6kOb3a~u2l%V3RzS[<K9F.$MM1lgFKa@>EK^N5i
J*8FGs=Bj2dUpx<^BzldZbm,CfOdp1e;9U2Z_h7z3B;bP8]1m!Xv1dUE_&Tu)Kv9+jy;Q8>C,T:9tH0M2+).[%ZOvnqE_T_8lh|w
tT;(bH*e4strI%d)Jop4hToKrHrwi(@c~m1^BFGVx~<NNkXX~:Q:++1>R@]jWb_+v&Rs8Ua<ONXwyO1S5Pd^Mv75dPE_J<a@ohxv
w9pSqyru9:Ojzh*?82ng!=m3^pWq&C,3)%!5[q~&Cl]A?|&9Sjy7:MQ|.E+f^jp+Tgr,;rzIl:FHA*vDZ@oD?,UE3s9gEq^Fduz3
)El<9[NKW<ufr$xf0+rtqB8gU%(yz^atXld5d3V,KRaciCA!$om7J0Y+E(or[_^_6zN2Rmb.*[asx0anQF3KwSs+.)!IKMdY%.lh
MyT^P8c?J@<DPt83l42e]qI!08K=Fpz?tg+yqRJN?iTk![ec<]aBCoH>OR0btzY|1X_$pfYw9mOK]E.T4gEq&g)w]_cu&ZXBwpXw
Fu~xVP7n>1nZ0wJi|73y(:8LV0;Q43yd=0t0lg8glxq,eyCDK?i+VyTmR=j:ZdTdtW.9uV|V,$qpdo[:5Yko9Rk+T21hbRTL,Vmd
_==gri^N]LD4nA(sy~.|2g*|>idk)^!a7x+fy+Y8>+S8<B0*CIW0(b[Tr[S=oV4y,|VQc8p?[]eCCGo&=bV>=soGHU_>9B&lZ>>+
s?ZQ9i$stTikrfnYeV+,nGN]r,_8DXh(.,X<+%B%!!uE*_CqIzBj$F6skEjYO3T^MhFWRGb9U&eTtO^POR~NH@gtA@?9Y=y&%t9.
v1*+NAlGhIo]u<s>?tU<t![2JD($jEWc.9%ca,kF6Ung(FvO!NOlyd(.3Fjhyq8+Nw7<?&yZ:Qd<x3|j_O:|p^=Re=aPK0aCrTwd
,GgD>Lig+VpCy@sV<^%W6nV<W^[N~bZyB7i1Z@7rK]h2di=BJFm,T|^8Y81fSF>:hDS$7E@l6<=1,:mv&.%<w(uQnOv%vJ@4.aLq
!!,dq1|xfH9ybzaB+DAWz;zC6Q&9XM.v7&sMsR?C(y*Q<Cnuj4aCG,<tDfUOm16emK;]neqo)=F,%y;KSY_HF!m$8BGi0Ck0>w|v
>k4>po;3qGN<aVj(V^knKSK.Z~_!<W5lldfxCD~%qLsVVqbnY!T^oRabI^;vseZpsSgGOgZq~Q[3rJ??W^0;,:OTQ>C>0qB~Fpe!
MA:Z65*l?;zyaz3F|FtcW=8kv^xXwe+m+kaC,1U!c&>tzbX1<@W%C:]QJ34=dL~:5$9E>FPCX)r._oV!A2S:uWX+M?g]=Ie=lZm)
6<|[5d+^ai$Xf8R=YF.))fm&jkolVR*Q]G_Q<$L.8ML>|n*<R1V_Yd,>$v904295yTvp7FlgumnxKb([8+Y%$XTVZz;X_Aqn0]l%
@nUSenEh|YwVS)!g8sDL<pB^~IS<?shpA:x4n^,1g<?+$.TA%]mj*qo)+9K1.ZMg555Uu3;geIHZ9NhnCe+rS3]Qv7Q9_WXfLCI+
Digvq.2f>+PT&gvQo^(XDWH%f??lwk1$w,|F$:CH5tV2kVCTXPBiV&gIWSoPq)SPs7(klCW<Lj*Z1p8lGYHN*HU~t9(9:I9nMtKw
MC).4iiGAz!Ii]8m1l&B67v5sjp)kSBE%9~?DT2yBSf<(7ARg6!0Jg*e_)p&ZLqs=H>O^M&Tx(=yhTp?w*XBPXe)B^zf;4L)I=r9
r=JL^uL(q,y)1$LsxS=ZB^u(9t651n&.Xik71Vm;j.hLP7oxUhB:&;5_[(yWzTaite~EpccbR?CFQFyl88)FpSOph=l=t2.Q.RKJ
hI,77k^9kl9nTTduALlI&hs;eD~_2kctV7uvq~15jC(l;zkiw~?VOt:YBEo^KrsB9y$g7hv3QBTsN6xhSS|_>=>xJt?fy2ZJU9Re
b+~wxDWSqixlklx%1Do*hA8nl.YM~w~mk5:IYzkO?[t&01f_w$6xjXDD%9kr=R|9q^_!96Y$nV4]t0b%Xa|kk<,67VWEI8WS3v3[
0R)bBNk1O*lJqIrSKR?<M*CX6inl0DtCN6*TWG(KOX?ykHd?fw7&e$sE=lvRz$g=@cJN~=e_NAyz%6=V]!j6X05G$H>JX?QQ7nMv
9Tj1zgP:7Xi^+WIB+hdbFWN%6dY,qk^EOA!4fw7OF$cz7Z|V~.o4H~Fk<cs^jNd9TQkN_PZ_$D|jK?$6$Jgf&$sx*49k?)K_r8zh
G+hV($Ry@P1C+C7~<o4C)Clg<.x:e5w*<BxDV])qd)p>Ns9&iWxyjrpN4_v[UEJZO1NRy36MLeAJ61Q|Xf3k1]9Wa>]uWQf&qRzM
mIx%x_r!OYQPj&O<8gt(FMx^_;)0Bv7f_(p[@Bmo,%Uqrs,+cH8|w]=W2ugF=I<Nr=@SW=,&mD8+lMxZ0D*Wt7Lq~AfcPT1S_.cL
R;5%U5sKtgX.>Qt>V4xJBI3~eBD)Z~nm0J=NBe7g[y.fb)8U=?G__gtt4:2;jue1O9tXz7lHayo|>fHoib^zZCz[TlHQX|O:7Z;t
mJC];UzTgnb3ADE)O?Lxk*__rz.t0npy]v=TpzKL(2LWh?KKG<+>|ePd%G=|[yVUIG![TAKEa!o6(lLrnYsoMI_AeQXg;Dd8IP&>
Rqrx*&+ws=d&sqxe[;BV$$p:8MrkFTPDa<i*Ir8wtv<m%3x&Xy!ZOJ(.5UUJ|Wy1XG>rF)SST7%];npE|?xZ55&1$DyO%0k<x[MV
UIJIVOB_|b7KAK+;Qro0zw*=(uJ5]^W$vg^gf!^go4h^JwuuVQi8J,QWA+s5+qMgcCZj57>5FK_3?>n&78]iXrLB9gm@u@)^s~U(
_oNhr~r0K3pr0yAFkAmUsxfQfAYplF.<NEw8nDBCmF<fW@xkNur&yQ!%3tmciKn67nmL&Hj![7KD!@o9@O[evN451$^E0Iz:ii$x
.%L0??2^;!ok.3jM~7B::oQ&Sd)fCUw9x:fZ_icfVkAhG6,gQ&X9kjV$Ttpan8w:j:xR8z0szwgknKE:PFd[c[SLIhnPIhQ7^t1g
q%6z[NsS7feVYgj|.C=@Jv3Kr2Nzfqu,O7|%cNAw!j3HfKR&Vw,aKY,%+OhM2V~*q3*cfl3s%6:93,^04VCcrhDsWPub7I9w*(5x
ru>?[=IU<Wy]2vTwCj2y&:hc|izrVR:h3Ab1_9ekArI5vKmzUm$?nBRXQ7(_iDWkaA&Rb(Nif2kraimZDWxa!Rc>G24Z>x=SRdET
68&k?nMCK;a38rXd6Est4YN:1LAFA3RrmTz%cv8U=&tEC2e:MgeK@Yh%96B@zpcep_C3&BEyW.3Z55*kN@c3slI<*M3^EgIW^xO]
^jTs!Y:goaN>h!rL%Qz^BUaqMYghQyHzD@2w|Qd?q_onYf?&q^t.*yK=7Qw@ncit*a,z7sL%O[oT|>ySas*^C8e>1C72>KV>9c;D
xorj:zkH5+R_s39pgezS.>|CSIL;PQU8c?a&;2[WwdLsCB4Ui4I4Hs+++k(H;S_9PhHb4U)oY_R)c+~Z&]]8iQk$lfhM[[pI4)7U
pKpsJWCbTJ](E]sy<349TC7vapm@:=xr7:OBmiqkhId7U^>f+9JDYAUr::&Skpv_H,4I]!SVJF];TjO[Ah~^SuOm;abK%RG.m=RR
+~x)BA?qoxPj1Xy+y$k2fC6q<hMIRSBFccZ<ugd7n_I?Jm|cb!H88O:(VCM0oaLfhNUYTNW2@c%N,Sz)pT^ej2s6bTPbdzNic);<
Ne,APu.p1XQ!fRie^BUc]C7KE&7RG$0;;4^H=XjMO_kQmfv3U;SA@B67w~z>x,Gj]ERXmX__?DhtFv%K!Z?9t.EjL!5f+,EjA_aV
JFNx7uZII1Ja;$3n]P]P<qFDwdzL1OW(x3(qI_nO1FLa|&_J%5.qQ)Ol^QHxTl1HL$KOX@RHyv?T%xa@vYt>&|9$pxLN|<fZU57n
LI;<%5&Vm3QkECx=z..fh%&bMPSyk?n9LAXMH_3)SpK5mRtvf>n~3DR~Z4!SRxO[)=Qf)af;N+rdwDi|K!$1cpY^b~.Q.0L]Ms_y
%4Js=>5vn2?q(N%I3N|u+|iB@Vc(.ejEMU(a0U|6Th1]=q*B7VYcV6IBIfB7aq6J8_RyzJqkSSj@>bAi[*q2epwYs5r[Mk]z)+5J
y7j3_1(@mA]NoeT>83LyQY;p7@r+g%D9ck8ajsG?MpbH*3EkKL05amG@9vTDG!f61r*:Sw>Ut78vW1mU9Rw,QJ1ZcW]$ub_f@,f_
APn<N0rXR41.Y?V$gnIRpb(8MxSKX9p!,*t0=Fc_FhToBzWI(=qp2%A:!=+:T*.wFPE9RkeQ9?*2)AH)<|IH@aZ%tl[Gl[rAnX+1
Z=?6!9nh[ob$bc?c&M;1F+(176X@ZizhMH]aaCrD_22=alNRxR44x?VW85w9HVBXRUs?,TETkC5u+uLGg3SyBJdvM9]WXs=fr^mS
(J7A9c$DtGhx;ib@FlbQ<qGbcq=Si+rqWS:@qqN4=<pTtK[:Cat6lTb4<UvYC04fV%^gpB1zpjE0r0Q+,!^Q;Ij>.PM_vkI2;V80
K9p7zsaJl!Z)mKoXc?e+3=3q%Y(0yW5KZag;]TDJhpEJxK4CNjEL2j0)LCB^Xj(~~wM|vefUF^ed4dd>vXL(4kk!y,)Plm=yTmXj
P5qjI~QJfuH4%SY5r,*TEPkn98d<];<]P=,2OVA_0YtxX>tvDnUUZ?^sW5RKpXSzC4]9D)g.^J]=tuR$;N_@e)N).aZ4Ds:%tc@%
cX=tj%rl_C4*q|DL+!ifKyNu]_L0kauK6v^BJx;mKQDP?yR<C+h:PUf,I1gQIL5!dI_Es$8F[EK$+XX(+CE+i0vRF_Q<<YMzHvHe
fp0Fdi,k&FZ_CSEiZ|>4TS25uViooyjp_4%]d6~[41S$6y&ob$>Bh~=!)Qawo3^uG!yFgP^ici?nDo5h~zmLBDD=[W~Z|@YHvZ](
wZo];n,1BcvRAs~qy11<;*g:QD>D[]peq=9KgHA$hVjn1i>c*m,&2>qqWxisGjHxVh1H=u6]D)WgQ,bQhlF)].v@6;4]h6liT@!W
f~jCalJlOS7hKCBHT9FRH8!<:@1qN:W)JS5+3]Mwed[h2617:0?_eHb^D8AnDE_Sz^X~2x8;tA._h2Gy)D!.0b[:sL;U!jV.XUx$
_83vLqWcZ090(>rKU9,Jv(&dz^%LsXH:H~zU5od^)aW[f1Jx%JtIh[M[%@mIJVqbQD=XGSIv!7kv9YbSLg,%c~6JFk*OZHc?Kys!
YC$k4[3^s2V+F7zHe<B2Y@dbJ]~~zW?,,;]7M%4u;Fxm8jc>e[QsUJ;MtaHSCSI0VW1!Uq[8O4FDsXWdJ7X@wsS&gN>>FzX>$0lr
?|g]20x,4NnFEh%|q)(MnYe[ZW?ydJn_NQP80jwW.AqJKK=qDDgdBBBh$eH9hgl+T(Xo3?x(p_>M32$ViF3jPpoFGJ7L;5M!)g~|
I!(f1Bs>2h1*zRizi<Y4u0Ht|ZeKYqGG5V6$779F5WwZ$!Ivp4@y%8+!2Uj<<sm<$[QaUd9:w3Ht],gb9d>sQ5FpsLSt%X3he5KD
%1Z:nQ7%iT^9h]wY?;Tw_l0V.JXvOT^,3B:Psrrx+3xQD%(e)U|?.ItGV.0(q&_F@)o]nVn?r9wPJ.hK8!;6M+TFO<aZk6NNf;1H
&Id]vejoIdEpF~JZ6lU,Mxfu:ZFOq$6nJ+K~_ib%mJ1zUm?atbS]w3D|]&(6uK|(<l;<(!:*32ADaP<fQ<?QljZoKoQDh3_NMXJf
Y0yYXZtCPOnJ(u7k(|x,+ZpB%e~H$f@**~0RX%WO,FB=~@|ZE|Ak2Ey;OzbyH&b%5f[Z&2T,Jt7@cuW5Y2O1.J.|OZaDaP^s03lM
C$K7wV3Mf%<.jKuk:@&_g7<1;q|6Y.aCK0]$d?rEnaN&b1I,2KZ~>yp2dZDk~mp[;w6xOHwu4xr71*Pe]~iRj=$k>~N.YM%eMUn%
4w,9RYQWq=pN+W22L|Y]Nj)SNXw[ZrEVfj|W~p16Q<;mr=eHj4f29IbJ%LbG=fYTxn*^4fjwhyHmBz*m%_kw)p@v(mb&S7)W@umE
O*By3=k[o&LH%<3YUm75v8A0oe7$,jVQmC[$p!b|NhfpGr.u5.p)D@Hc;?STM1[K3$OR5yl,V64M[B7y~R:8G=8Cvl3c5^izW(~(
uLw88x$q$(e*v8~ZtVl+=uHu(>N_AEpCZzPoSMKNumq&.T7zHOK<&l@~dK~<>sH5NN)&pO*:WEYPE84s~nA7m;U6@u^LiR)|;rj3
a2(^p3eVNgMXscqYahYXwT8c^F17L+|7KdwN2TH5ORUR*9I~d^kjE;!e*|c+F7vCn4s)tzt)3o*g~hOfSsqrUZbvz;cbt?&^s_EG
H6_fgH@ufp@Qk2cmhkj.8^W&ELRC7>kwnSIQGrpvmeY;)yfqlMqQoQ*4ZF(J;QLDO4pLw(HkkTjTXMh3nYZd[f4G6|NV2oSX12VW
T<|LjW%[QgrpyJuAglG+Mxzr^F?K0bha)VCUb>2_7G|UjJuROJi%OI<oiGT|PIAz&6]<8)AtV:TT>Z9rO4Jyd6^1Mb]OWXQgtRk|
7<fDiHLsw%D&ZF8:,gyZP2;U5Jh%XQ25x3aFKWvI39*![yo&LI<FP9PKOk(RG0gGECut9|>~YNGBAO|g1qn$e?WeidF(pG8Vi7to
n9;Qw2MY*.n=2YT3;L(3TlXh<<kVtBl3aqS^$Ea?Bf2@.4?N?T()Z65k9?LH(078gRBU^0(s,Yg(~_6<I8bXg>s[e2[1BJqSn13J
4Yai9=A<O?,2,Xyy|p|uZpG6?NUe41!,5On?C.zkcmeLCyw^nl?eOF)^AP9~OtN:0T[0p,Ikto^6XSPbR.cMie.R>J~]oNIFlh;m
4xk[aDjs5W6eqI)yMAs0%N2PNl9|A+fPUhY,jZRf0t&unK3B6n.cxX:(_I0(@:YtTERU$e7jRkj72yh|;&tF?37=BNzL;(e8hSLL
CO@pYF2g)ohQ^T0Y6:lyjOC4sRhnT$aRkCT*E(@8ALx>qbPk!>;R6fqrHvz^;Khx&:yn:nUQ,!V~$>Iv8F(5%T3^x5d3y33oyeOT
~tut,8Nl:R38rUhj~gxRs4$$]~AoTyWa9~mNGnT0Nc&chxcfTtv.I>wCpr76_m+UXxD|jQUY|j>:NyB[<U[gv!UW5y+4B!hH[SAv
Pav[W)&LGNPjvl6D(oH,TR$fc8o)=6q%euFmuCLZeut^)K+i+|x;=?)>0jZeO0(Y8gri[SNu6P%7,H+Pvo:?~ZRiGeeGTEW(Qxga
Ot0o!qHR;N*M(awFr78MlFiV6.5lVKvomsQLI&TW$o11*7.t+O~>i2u9ii?VRiF<_9xOoOFM*0b%bt5ImLm0s>94XR^Ggj+a5^)>
GrT1=5l6JXO~2s:Us^h<S55hA&5E4Ha1$xSu0v><,ig4Uln!<g,Y)@G;X.A~0__uFlA)F%u5]zakle~,O4=f%6hg.[.5:2QUYF;.
GV,^0y;Rg*0=sClb(M=@gT&<qGQ~lW@,qSeI2>J*t)8<eFL<56,W=U:ceQb<^QL|R(!qq1G~,1pvFi&U&+~Xp$Lc%_2KSamZ*jmS
G7cPP,c9Lq4%vxl]493yK=Ge0mWnM$bf,>+]hH_]sd6:EZA>RHtgE~U,D8^qMg)i+OV:bjVb&CW8RS:mu>wEk8&2KH]Clvm?F)q2
u,TOMst3<.UDEAA~v391js[w^>d&%Lkr658pvI4!;y]p8+x&io<UAm3]ZI=ztI8TCngP[B>^G6u![fiK?Ux%$Y9qF,)4T>03k)X|
YgSHbB&p(Fs2hg_?Y~Me.;)1JYt9H!7LogE4SfBUSI;~8)@rvXPu;s&]7:A,Zc59s55JM+yIR*|=TPFFOR:X==<aQSYvi_bJeniD
ARwUnqi6fy)%w7ItYa$.Vd[xCSqhtQ7TPO)!,M@oq.>E%^Z:I_IuZaef;UG,oPb7&8>x]V9@jE2er:8qlP,)GK@1wL6.+X4kaj]f
%d51n.&?L?DEw?au8Gv4eiXyde%gmo~F.%O$t2uZf!~ePtTW0_PGZmv]R^|q7Us4d8gWv1f<oqJnvdJHOohG7gEi1wpmxs2yx%l.
K1XJ)oa[WPqF$l+sJb|pM|rKn>e~*:a,_zU+HBjgQneTVQkH]iQnd*ZCsR@Q6eEF2i&,Y;B>Yp~_W<Bry|Moz|D&ThFx<$d5:uom
S6]AnBjq$LFRn73zs1xwNjSin:hbvn.fY~.<YdV_UTl=t<c+.pgBFXjlHv.XWaRysm]dJHg^+<jv;qx~GtRCuY7_(m%c|*BWHHMT
Yp6)N7A(bDed@aBZcdfsPUKX%<@Rr8WsM8to%y=v=Dw!;JZ*~H<kla~n&n<H4M,8s<8bZP+uxxEaMjgO07cGDdU;i0nG?ipCmHb%
.x]?+x@F[sl@P<WVV~V<CV6N$_25TPP^tPIE>^luSObQPklHcy*|g93M72Apae7ig)t5L+^ZPhu)V?d:FR[7OEjR0?Z1&RkLtfdV
IVlLeUvE2O0rb)MNB[|i4zuHW=6@J0Eq!2Gv%2S<o;BJo<&K8r8(A*3sb%%0Dxmqn)|~c~zKfH~=A0bK1:GU(YtMgZ1s2R*JK+T$
OOpZ6?uM|n@Z&9hT%KNb5xq=d^Jv<SGKL4R;mkCI2q!>D+|,%ex?s$]Dq>V_Ai;ijv0;^z?D).qpKB=MYe;hEJYyO14UM~Rpfg$1
iKgg@HvYl_!Z5pp2ku)(aLCawVMe+Rh&CK3EsC((NnK*%JEv[or:vo7k9@+]uA|nZU|IG24CL?w8C_6OdfJtC~$+7.k+n=)fV+D[
wQBkkyK|x:oPv,?E4L@:F+:Wyp|.^|$YP|5CgtFbz!9FucT?_lKXRXDIpwFk!&ZYkvq?0A@oJGJf:2u_.(s(jFApkx8fJbKE(slQ
Qs7.+ZqY$3lFkpf*ogv&ljr($nAPRPjLx37Xtnq^LqPU:V$Sf_=mycGTe,CKl1=3crczP=RcX?ylP*&p%B|O$,>8Af$R>7F,%&r$
ZShYF!?3A.8!do]Ued5^g]xi.$zwxD)F_:ZE=;L)6!aJ5J)j%Ic8S[9QQ;56+*Fn%Et2qsxqPhx5^Uj%aBsxrrFl$p1&?L2pF5ll
_@6M3rOm,RjyE(bFE2M4:phZNF(mQzkN4:sX?cl4WBFahhkh_R7u>JP[+aO^?]yP+)k,0%hU1XB*47vc?xA!;OcH1)xG2lC.!1=*
H!GWR((~?d5c$UEAtk+~j5V;Gl|w[S8h46@vy$<%5b]Y~n)8@OI[|w*0uUe4Gkwr^L0y(G*G2HxAbh$F0:jhrB;%N.M%8e1[R4lT
P~2J>oK1<bPtGK+>v$&cm$=$Wu%?P+8aR~EG3e?HFy2@~SyQO[U~I93c*Pzb*GXJTXnjN|Ec$x5bNzh=vvf|~o]?gAy9N!R]x3AN
$5&?;hM@Ju0SQd;rF!s?LM?nF!0YB5=sZZ7^&8Fw+Q|QaCg1lTD7iF*oe&<|7D193]Z<N!n1:[vU;(=9Gp~y%wCL|Orgrf4?tOhd
F7hO]wD%_.WoJ[BLgg6qnL!Zk>@Ql1u81dTq.PVgv=.>*.dT|X7|5SoSCQLAq|Lg$nf+5huBGtm1dSOx,LmwHo=sCrMYyr?%r[ow
bnfgdveSywdtt<|u]dJ~rp[K5QkhQ1!nPdht5s)VK^(0uDHus]%hK)*G*8armf;o![Lc3IbE,JQ8c:NHj>g&ui,(X|e0+JkG3,6Y
L7c0V~D?GHq&z8VgZHc]axR3i4y,y232d!fn4:Asm&?sBeniw8,*f~~=_>w_$ze7.i1[X|Tr<df)4^8rJf=]Sv*O)&XK]crFti1u
WK$Np;SvVwqSvS6eb[D?WCrqR1AH,cQRlwsF,r95.&;vAUd~IQaHw9$;WJmwG[8Log%d,0XaefaZf|TFGra@x5.R[,]c<nV6wo4n
fZ4lEAxNIdJUS.Sog%Y>Scsl.v1._7MOnt0r8[[^U^?K]]i(Lkq1Xugss7[Rz~B74&<=KHvBW2o5jbD0M?H5*nU3,yGO,.93byAt
(+OSUF~n2ZF*MXG<D>ALMNRHC[;@BdXytBI8K.Z6g*Z1@^4,xdqDlzF9SyaMs~f5P61Xz~;*(k)^YzIigv6q?9U2K!72bq+$gIsL
$PzU?!,q[TN1!@)5Bg.7!eb.SXFBE;NLZJ%69TmInNJe&4H^BgJ&K+(fc4$%1c]gV.B2&8BR)E25F(_t~mw)IV?sL_.2;Nu4e+RV
Ax)O)m2lyfI$u(r5B3=?cA9FVY:SL1^+a>(AS)cSK4eWXy171elJGp?)tlm.h[Wm0*V7,)~E)q^j_^5@Q9zC|f]H(p8T[bDjWg5Z
WptOR1^i$7%Z2J)g!nNX9V7TC6[y%]DHbWQaVcOd^B|,+]CpUm=^Ae>KJuoG;G0GK9^BnOHC8qwS_70~AM3+$pW:g>Qsjdvyw^J+
?*zbcRikU.Ao:EC4e^1Ya$:5uQUH@P|SJBjm,|~EKXy(i0;4u)2>SV$m>0YJ85Lk^MtHv:HWY5()w_A(JpFsZWJ$GHD9P;(1$UU.
@>tmC,:cBAy,$QA;)2O%Ki7FcPUv>>Yn_$711[SqH>:enzeU4~zz*+sw?<5_>ts5JLALSP>Y3)x;B[=3q!J3bYxiKNQ|AY;FSoEd
=Jt5,:QcPB+JgJUeF(s>TM.n]?^<%V+gAQ2ljWy]U_keO|DYc$i^PxsIFCX7lfNh$y^u4!,j$%yX)b0gL&VC2|)ILbDcC[@yWL:C
fagNr[=4fshtKe+W:Q4Ml4]JIPhC)dwp(b5;.@Cb93)nK?nE$X7(TP!i,O_qN<s[%j2QlPq>^8xT_.@ZphvVRyNxXBzew~2ZuwSY
VsbPp9lE_]9o&(_3m)CK,bPzHXGzXyW^w_v=?vzv!s|h]ND(jNp5>9X2w]zv4UC6)Els!bX^R!Q<~%@>&of[y@S*!L?gJumSLLwn
6sI^)NGSjjH~~4CCHNM>xKis3C;i_K($FLQk0LL6]jqK~Cb2&Kjy(b@F$(@qT39+[~L,Amnv&66QgsCy.!tqml:)S|*sep2yb0nq
lU:p_5k:%z%**V3X:ORbaeo]b,^2p_Ocj*oijC%7Q81*|.tJSfm_Foa*QA0w[R(EQp[0*B~sgrt9dV_sklh*j9EphEm3t[spjO0h
T+*VydSFXbSHDq2c>b~*zIw]fv6;I@&Y!xJP[0:|3zb|R(zTw4qkYy6U7P_V8TgO_;VqJ!p4WL.&XSW4~o_UKwy3579UoQ5InS?x
9YrCddP9*^aAt:t,ROp[Cg&e6qW,(lIsp8S$47,Y9Qne&ABXDfd._bm8WqcEc?)s$MB5zPB]EtA;,Fwm@$drW.jIlj=j=W~1t4h*
Y<[zhrf^%;.L4V|!C1N6eeN8@X;:bhsjLrl+f04s%k86sRUcq92:q5T|KRLAp^C3]28eSDuUqxS5:HjB&Zi[)x2^xj$^qvQ7Ejvm
aM]0?CNoa50Ux:.0HAPSw)1S~Y[r8kz^ue>]t6!IU?;mXlMz+6:Gm1:e~AgabQw[fAkDHq!t+rIn[PWUcV(iSMFj<klGEvgO6L$Q
rhV58r;*(rfXxWqI3gnCBq<%N6!GAavCigOzl9iQuyg38QC)p_82V5mM9w,O@]&u?+m&ynrM!*9E6^aDk^]vksx4tukuULV1QMCr
)pv3bqzG_4yHr=5XkxW%[>+77y$Er5X,zJkhVa8wE$d?cvK.Qv_,|2PzP8g9fKD.PvRU;vesRL3]r~Z*_w7v^Oi.Sm?:<xyA?$Oh
1nRGg;v>Axf(Gr%5*x[oLRh@j!0~wZ1xkv4T6qtOS+8d@WcOo[=%01=6<?.TKUmZkbkkOgHd9i+^hatj7c]^WWT!GrhR>cXnm%M=
).6]2ir51fG537zyBmn.f|gPHSBT[96=[z]Upc[[X?[DShf~:y!K5%@Tz+v[Ot_>1dnzL<zZAc5$JRsw]<)~Kj_6HA2xO7C|x^9<
k?IF41+7RvO&PA&?VKn$R,Lc2hq?)8t;h9d*O.iHq.8!?r:*(D1]t+~SwaCPnKRkywm@Cm4%(]xu|frtH&2EaI8la?fu6|00D:J=
;Cju7e%ke6HzNm6Z)EWocnU3VV$$|:$q[~z(CA|71E;~BM3E8*Nj>JmtqNo&oF5MW0SwQCpt(4_9jXluTEB=r?DNDr.s4:ygDP+)
J](n&oGBjAazJCr@+^Lk519P2AeS1F.v3GN4A?tS~,nkvKnl_V@SqdkdHuEz:o<Pex|!4vGH)E+*.)e^mpP0*jhrK2hcTT!t?3FX
zg^r4w$6.q(+2gW]q@~25T~+iRBk;lv^<lQ<lMXp$9a,s@Ax6j4crQzaCglvln=V07qB~Zd+&ES06r80]LGx=_llFvK~F_;cTNpX
A4Y%;V.YRlAMC%(;yLOEhPvD&*.|P&>!G;%jG7B3dJoqfUgww!aZ7Bv:yMp;ETffQCn]HwPNFUTZLlyDzADOri~!9M5Z(j4)>a+4
=rc@Ii,ymH@JZ~F(HIO<T_Q~:vDs:aq[.W3Rv*9Q.>:qgh_4S)mH.1|DzyUF*;9PcGPhB<Mwk3Y^<w+[!4rs;?NeLL5$1ING)bQq
<WL%5GZdU%Fpe|a~EM6^15lwxB)CUj~5BbvHaq?%%jY5Y94J]YOmgP5jlYO[53zTxXqYQFkao(p4>PWA819og*>Bo(H_HgNITAV9
bHKxK3n)+%6LNw4|jE*+A)6g_,*4s;07+W%CyQ)xg<)B(|<L3$0^W8Wz=9f4=54e0DTSnrA)k~WLP<?W)dtX>0F<XsgrhS~.iFz,
~C61lRAeM(Zzr,E]Q>:Z=+D8@u!?(M^l4FP!d68YQ=VZM19!:XYXPQKhv<(_i+J.~&uSQ:8evcZ:1:|!<v53CCi*x]$qhf0kwyen
KnJ92=EE0cz~h79Ef@c9J2b_G|9RGztr0<U4*~xakPU$3~]4*xQ$kKUx_N^mNeP]]4_L2($v[sw)wAb*e)&gnGT*7PMf?jc.3uc7
e6~dN|,Ec$,DiBfz+f,.&5O3Ni;>EH3C6)cDCO$_g=OelLTj<;=*s><TOEie?ZBrj)lm7I6=+__.8j8SJZqd=q,zq@~F%n5%s3;i
qi1V))C3(1kt)m5Th%;I_1_g5@8xtmtz<oh3iDT^:k6Gqw!~Wt~|o9f^fR1s!z2*!YA,D=xp*^?54,bK(O+y3:xFVBpO9]RO6eL4
z)I?)~HR@sR_(eEa6mv%K5DLF+%o;,udo1@Pqi_EnkM^uc[h4mNO7y+DO]7Y_Zw~jW;U3_uhI8X%>G3^~qIGUp$6Wb^N6fKd_9G2
Au46$vvg;mYMvWW;~J~4rk%@Wt.JbCX%sq;EQ:5+B;vVt7iry+]4,)h4Kio>H)IwilU&yHIL=g_tN%|,o^^IFY6[dx3^lqYgn$&Z
Jm%%5!umEYy9m.aidC@4N!Xh$h&CHHELTso_wWb$3=a%Xg0[P^E<)u)cf9a:A?Ibt=IeMWy!4Q:tqt~crKFJIP[hpG|1<K!Y&oH_
*fc2u[+S^)<zC]>3dzQf4CJo[BGj1EKJZ+%ITDgbW%%!*mg)M4i4dzVoR4ZTA$n>OVKUzrNQJr5Y2rmxTfiwsTfA7CzA^E<>(=_8
.VUbvz6O^*8T^K@,G=0p0aM5m!T51RxWLd0a^p%^L^TAZyU_Ik4^XaPZh4w|SHbS=Y9ACE6EN?4B62RbD?!T!r[@8U?.>6?>sdC~
(Hik97vBMV|HLL1;JTU^C@]dxfp7PXOl_]cA*@.>osfu$dS<ecyqOp:a51^DZ5PMGqL@=oqw|=@zO<_ATjo!N)x5iq.lK>:9ULF3
^+Cw.[NmGf^<%dd&e:c<sPUKQuRKcrE6(^iIeR:tHdj*w<PgNk6^yy*M^HQ_ia3%G,D90q:%F[!tLX,?GZa<|W9Ff5:~N&PgNR5;
IFNdUY+Zolv|>[br69fBI5~)m1|SHSgWqy.]RmC[T>Pq8]Rh!DcmqVi4_>11R|2P?~nBmE.kkGNWK^.YQxQ>=e&lFcUz)Su8s,,x
rU*g*NJvagP$*3SBq2!12ZkvcCdN4iBn$WfIQ)ZObAm%^8o4Zf0vKczXQ3=8=ypIGeFYo(;2jl~<$Avzp5)3wb=K8>ox:]ji:)ol
o%jHs:M0E+23:);(V<!5@QG|_8:U+K0oj1XWO((^)Z<_zcO24JRhYQgL|64zQY,eR7*XF+(1zCok(r3^+?Wp,,T(Yl+SDEr:]_gK
t|c4RmiB[m|c|$OlBd;w8_2qY&nwedW78:%<.aYHFGgLf*MQm%E&>(XXnk8ly%V*twOEqpVz2^*9Ol.hTNy<(@HBK.7Ak,_i(2Y7
aA~G~eA+$ry+<D~JF2VE6zp!%qe!HeFi^PdY.~H$:]FEBsqb)M]RV<|7TfQ0exEp9a64J)kIhYkJngy14mZ=wIH6fV|Lui&.!y^L
x%+YP(,1PlWx|UrG<xJ|CdFR0Z2i5|+=qSq|I!?|_P.bGw|UkM[rS?M3%t.Yu+M~%XGk2XJQ;g*.sYxSc@rAnG0$T[(7eY25aml7
M*=c9&0IX=N_89%B66k4ub>pU5$Z@eP6tIJTO*F*=:EVd:=JW1xjq21w@hNcEh~@%upqw6U*JGN<JmD%bFA(x]dvw23>:WM0iD5h
a1@<!2.lkVJWgVCT=Yse9Q*mp@H20)UM6|=E(RaE^Yo:I(sReF88uh1+UeGVF.Trnzq~,@V:,l0U1M!BNf3q8&y97J63H=LE5B&P
wCSd]8O:[0O|.&K(zgxCir_V)j:a:?,;3lLhm*jTi]qfM!Qc!$.xIwpBXt^[HB%h0bJ.qK<nW7Qw;$~$bV_CIM!?LARunjHC~YQN
qxY@q>$S5gd]f%sv<vVnPNwz|eRaK0ceLPpMC8:kB+;^tp<%Y:zENZ&%~LgJsnKxEjTN:W_8b:!0f&iE@GN4[:yAG5xWGaJCflq,
[M,J7=N<S?ixUD?]^7u($KUC]Si+6DuHchW?9|Mgq0%B=g*vg;0Hxo(jjF2D|7Tr&zB=IMk~Wv,*+S7N_C~;6s?>emVjD5[>L3p^
&(:&*8w:daUmTqg]r8]r<aFdX%.Q.r3RpTClPqfumFy5?NV|Vp6(V:y^uvY+b.;C&t!8Ldq04W(ByxRxrlBZZdi%k<gH+v2]JW)^
XJ1Q9X(Q[f^>x6%E|R(m%AW!Sn)lVWl&$6x.fI0|pj]U?aRy?f?|n?;*%l)v=!FlBv%Q@aG3ntyB2I%~yHDaB_~$Zu12BfJ^TLa(
=pOet5|$CYA,hhg)HM,dC4&r<TfUV[CqdM[(OIA$mJbz3TMnsO9DfE,NI:*NAJWVkU|FdwrgS4,W8wD1.G>T3e[rmDK=7,t?wuQW
z<kJ.X8O)_y+sYz<BhdcaQGdc_^d!kwQN;$1,@J=E,z7mz6NEKqYncxr[!XnD$],P!Xr5$|hJA^gA.WAPK>dZ,T.TP[ML)dG;8_U
W4zH6ls2e>r(_DT^B%g@!1TMV$2STHJmzW5LykAvt:;W:LR4!TP?Td9tI0bp!e6y2*Kl=iV?ED_93jG:.*vYC[KX;|eGTQe~DA_N
P8z3e1so0+lFCtml,;5+y&?lTV^qSa7TTYXH3h0,tk_RTq3++n,&b$l;Ck.Xyjj<$C:rg2v0[?n1kBD(|U:kKd^fuF0,|;*XN*0+
X4JJz7T(EZEx(JTO_XK!;ObMR]hm[X^DnZMSrjM@HU[fG98aD%n7Oazj]rI.4ONcLkxnRXD|59^CXY0qd|w7yyV:37KllooOBw*k
swVgK<jNg+lUuyL&Vn@$w2^4W[,;ZLSi<5FaXr~v@=Ynb8Wx_<uK10l:XFJYXd1AT^O3)re5uQv&^3=HlM=%P>(iWK0~SiTAM!I2
<fF|BkDE|lgbP)V,U1K!?qo_~Y3V]A.^myG7=0n<3N;K,~tUkT$UP9hSvQ^H@Y>cRk2Pnpi54:8!3V;g4HTTL_NC_sRy4n+,hfeL
M3N9zcsNBJ4bILV1JL,Vxx9t$J9hG^=mQ>Ui!r<8djc7vj+Me4[u;+TX$_%I^moDd$6J0;<*x*MER!2*yyh>iF@IV=KF:>6EEjSv
1<8Z%F|TFL6j+yDdx8o>K2R_r,)&V5;<>F=?KK~E?~~Xz!&hkRW%w[9.W1rWw8F^gGG%B;xu@Y$yr>,+gA|AQH]uJaQA*fla&rQM
KNNz|E85[9vJCAQ?mDnUa!QST$t<ruM[[>>Y71|]HT%;Rv!ezMc@R&g]6_ohVs7i7APSXDvjYf@G)[3$LOA+;Q)C1woRg+brHXy=
IY~g<3U%^~$kz?7KLPrn7[%:jspQPq,cR^Do<C$Bt3]7aOIlizXI~w<@o?ZnM_p0Rmv;X^T]&dD4PgS,=pW4r?p;vpc>S+2Ud7G%
3N.+oDuF1Gskqtr[8c|S9w_nJdz!@1|dbi~Y?5a:Um~b;An.v!O=xH+!g6LbOD?A+SmPJbktG:d!z8,U5A>u22w_?Zjq2axuk=wm
8F5%]cEb3=vkDwMTtF6g29gh^SE~vzOkQf^>s12!)btD&4F&.;>tuWGe0EnR<5a|Eu$Q<anzsZ3^X84~z)hv|Hi@:J(iq,6|=$1?
JxsVmbIKf9H,8OUt!X:z41.EMAERf69gU<Kg@R)nP&kyNMMd)!|a:n$)lSpi4,s_rU8oU+e>M%:@s!KsM=in1B3d$Jecms>pLCli
a~h83!16NKBCN:A%*6xH,X1C|fN?i!*RbuM,O%TaBo6|LzwtZn4X^JPdH(<W!%;6fTnm>q~gXNoA6_tQ:bv_[dZY>rUJ:^.B+gT8
|Y.Z?,v$;3T:DVMwK^~PqLj5Q<T5&[!hGwQ)jOKdH~j!4XPeA)1&@]H7?u,*m?lMV?1KeAg<jqZr?(u?ZVmEfD<paT&Jk|,r)@Gv
hPhyDLy@asm7Y<g*pDQdK;gw*xh1?8~0znmV&pzmctEfIina2Or~|?hS[37b+F]_c89mCR|smL,W372,MS>1>5M.B2Hj0SuF;MGO
s;U66p+0nEF|pxOr8uIFv@O!4irB9_5$<yTt<z)NhMD_ulM_Bp:As.!U@]xB^aj8&hoXR:ek,g[y=YulPE$[!TP8AC<j!GTkFm:B
RFXU[XS^;gg3f~Ut)31Mv6;~l_9XhslcI:):Yepf[ZM:hHf%f?7A7Gk%vS7fs9R>F5q!GImo=]lhwzIPyf&nqtzn_UWt$:7YU[pW
olS)>!++3f_k^P+7HKd|Al0Bo6P)urwoOwb3CQT&7v1uE[BuZBU%vfyW3MKohs=ZxOwMG=5kv@skhQj6Sx%oLU5L).AXnqoRn&Q~
|eTxX5|2qcv[O+q<FEVAd=o@.,f[xnBcs.Nsl^l0lM>rh5.r3%sHyT8OabarAXj%Q0x>x!)n[z*BBC3:HyGlJ=6A,e[ipfK<@)<S
)5yr4W_sE(D[R:)FQk:wh%peEu2SBD(?gN]MqN+(f~f]QE6!<Ad^mb%Sr<Qrpl;2)NTpcuRmd|%tp_CUpa<|v_n8h[CjCVQKNq9.
oL?QA!x^^0~OkoEnhmPg&_e5ChP0g7fJQQ*$EErrY[_qZO(vFcjGMkG63o]ImgIGY]D:GL.3)797MC>;>NC%(ywQLH%w%6HNGolT
IH?K7Ix0mjybWktlQlP]<w>.6z:zl65bg@9)NcIJGAPB&*g).YOG<=_>Rf4D6wbkeg9n~cVLd&yJU:J:HD0ABHC7P3Y~mBgBeTQ|
TRo8FpAqQPf>pa~;Gh32M^,XcvQX?:M[9EY$)<a]+R!Ehau5+do>9]:y~QZxua8@iFSYHeo:1Mwfmlb18rH3S,Zeg.kVKu<v;CQQ
Ui,]31J%w,mvE0JqqoE<~=NgNHAp)ig:<vxMaU!(lAWi&yg^z%,zgPSrUwuSU~odx(zYgbGw?a[;9+]q6cnn)fx^eYhjQ;,M*wPR
y^Uh^=*D&fK&1.*tk$^Po@(dH;u,j=Aik6bqpK%nDxWYd7+5U|aq9S~s%r0*7PZ9l=IlQ%D9wH$5.lNb7?>I)3HZJ9BiT2;g.FUg
dME97tl*SSh2_Q1v982j7g+a7DAwG!P6:<!xQYR8bhwxI4IovVg6e(3CgHG8hr+H)c2UEu;^yIVzGn4<BN<K&I=E3$b1:|p|CYnQ
v((L,k@Ues)Mk$i4qihe%;G?L)8)T1$=OTq4$(_qX(I!+nB<:*aSVh]3:&xOLW,L*u>1Bj~:;aLHX8Gg2|R,]<(y$?SLECC|:*Qh
PU@Z94XMt1_S*,i7rmSAhO^UMo|Hb<LbjaH62cqc1*(qc&ydEM,D7z%>v3msqnv+OTB>9xId5F~tnIGw?zU1!I]DdoFveoBcV[Cs
a+jUIQ4QaG=?B<SdTZx[;Ha]v;E+S?|Q5~@fETZjPhzJB&(HBr.O?MLSUqM++pZC<!<mF_Ps!3xr3&erXpo^j.c*wk*L8KPe>9uY
KZ;Kt+)*_~ng^YPk9IC(6%=7]SX$Dh$]cl5cNTgUQShiVZ%nM;t+t)|],nli(HDfmpYq]G=$J^6~x?||^EozcW7W[NUNBqp+iSB&
~U$J7PfsG(uQ)QL(J,&X,]jw+].w~)*KmMo;co10T52YoE_9zVJ^qN|Y6uRp74M5?z<)f=gL8LgSMz%&qik$pUCeGjCh.]k!,Xjf
vhnKXQqAi:V3Dm]b;>Z2[.1,w,C_buym[Iy@O.3(fzfGs]|0.P|6]iv62DHV$D&GmE(ZWSwxDI>N*41.omCnW^kgr@$9Mq4r1V+a
6If[NbrKOGy!I9k~o@5W.^,<KzxaD_F9YxfrftzYC3H]ftP%SlM;Xx(_V$:>sWJZI.&VrrQfjQx0H:8K%yZSGj7S!zWyQMmU;m)Y
X*9^,Uipg5uE@e<*c$h)]JFLyS:WdL,:nb&6AKj)Tx$WY?V0wnQL5YNi.,L;lB4JD>9+V78^W^x),._bAKvu[Oo<L)zud6>pv!gK
>VLKr[)SJY<k8)RVvGdtOT;bU0@:TrIN@xO3ugKQ5;R%;oQ=@?bpN<XTZqCjvf)SzThoh!1uGA]b@4trjkcdC7FQPvphpY%$z(q=
8hB@:vc+&bf1wzaxiZ=xUL^j%W&w$pX]b+C%?!DFp(K[+!Xdz~;4|I*Zpt,NmcGwa*q+x~FwhHQI=GpXWUK*GwiZ4^.x[hM4wqiF
$]v4Jg|a(~uz;g1@dtmIt<9g.QN40J,j016.C+:PdHvhrRd;]<zIt;TNcZ&+ZyIi^(_)UVt~b)]=ln>j=*jYdgG5(_Z=PO%ziJpF
eOq:k.%QP?)(MI+,P$m>r<E.VR+&>aE,&3a9H81x>LS!7*Nh03n38hOC_!K)+q1n1$EokZ>iLRX,Bq0ib>_6;=T=m5aC;8=&po=4
*DpC5~ux?P~A_em$CMA.C$^0xRwpUinNf0NlynNazpOW60ZCZC2wL.~L7Jz~n:<(Ted>:?DX!NF62,<^o^97r):0LwKFIV4llyqf
gI]Y+0W*uT?p]!?JtOvWUfo8Ka8+YXPyHTC|L@!]Vm>f.Bi$C:>1P&)v>cW&S$>p@*gxhf2TbK,_%DyGgKHz~cwW8E8ByQitFp5%
vo%H9(!;AkMl,uqq@KpC6<$e136>qU:qlrCN]E5[3y?o^+Cy.sHiYtjD(aL&,M^7^O2.JIG+Od:hK,8C44]n)?XOSF=qR[1au6ED
Dnfx_gQ5w(Q.@TFsh%Vz>2Q9:O[TLbaeh|yIlZX~8Wn5+;~yKEpW]u=SA?P,EPch4&(h<VN@oN~R*PMvP99|5dNgAxF][8y%qShj
&&3|O7_k=T6kAvU%*t(g8T8cct8JPn6D28(&uI6G.vo*Za$TM$]e[HOtUX<+[A[5P)P0?*CYi,=Q[JbMYrz)Hb(B+F?fr3fRAIOj
J2Rn|<EBTC5kd%7b$M~Q1hx2NwBAB]L.Jn+!L]w~.L;=uu57u=2CKRqFMeZZPE,1ys@)pg9<4+6v(W.|.tuiXg>RfUp(R]fmZ&@x
zo[kqmBj$a.t<OIh]dOvXa)4DaDoTO3@vr8s2umy:tU+b1WMf@zYK2+pAvp0J!%O1Ekfnuy524a4M%3yi|qBIBqA;AylIz|]v;Z*
Fn(|D?euVF|Ny^|5x%bb[yDi:$8<tci)PeJq~;U[D|*HqYGJ:LJ>>i~O(ERkKEONjn$Be)Crg]Vx*T:s3KuKTDd[Ir0JAZ8iL&@+
iOQIQ?~S+6>2qaI$tgD(J7oZS8$r%>jWBw<dt$l)r_I2Vu6RnCS3%HCs>n05o[%TW8?Bz(j2vA,Se?n2P$%uJ9P%.[PRVCO_tLLb
H[tW7%;HW!LUHoP:o>*v~*pf49JQeM]cU!f:2Gn)_zOcMFxGq+(,fwsHf0Ip1TwD[jtMQQcFCf0JQHpt,j^w5[4Ja0s$_fbnce9]
cPxAjIuP~a^YUvzKEqlx?0]*erPtUKYi$9ACoz%8H~MJhu6L:BJi6gup;yOoal~^HqVc:oBbxO3Zz4!C4_k[[)~kb?u~ROE5D.nJ
;@45z.4;K9>gUq2*_qlT~6t:0CiiFq=O[?aY,auivMGEXMdYmi;2STaU^v?q1V.|:.HOnh9IFZFh_l+C&%i+QGYRF>e1.$+P.B2+
geql*:el$)D[fSWlo+IBFOg^!l~X.A_||?STw?Vq%Fy)sGRMgXG[%9sTPNlLstLD02?q$AI]o!@@O+Q4EQ=C4cc!hLuo5W*.xZo%
M!Tkji0.H4~vs$x;VIV]kljA^%J$xcJle.!pZ~H70+]l84=uu.m1f@,Z?<=fv&=1l~b>sPVy9|3nOwIp]8Ivf|v3(2zvGS_wS9rS
G~[$|=mxk<9J_nsoYyD;v;pvUkXQ7B^8m>@K1(2_=jO!0ooMy+=_|ZSrFk;4soMCe?[5uyU;e0To*T?Q,v_x*_%ya@KUWBiJeJj5
M&Hq6[CgPKUk38xy[t~WX)lI[n%WSeDb&]vc!mf2QqBb;Z?rZ7B0PP.KKWgSvK_XFCSE+Q^cX@.5m6=~u_uRntL2o.]b!Me!nD$M
s%~5$JUdcId|IhVYcGE5L[xGL*CqFJMo35G6*w=yQ@pWvC2WgB&kFl!yI~+kg_ZqBO5nX,E9?X28K^XAAa$5qVC>:@|IPIKiws(|
76XH2NYV!|_E??FKHT.=Ezl]!GjKlXcs_EZZ~kmPp7SvrOs:<iJ<M4f^06UyubO5kdi8_Au_m~ps:MMiDdN4.iM$53]xEN!Sj3j<
M8gYRW$RMy*EuqnW[zjfC;XZXQH9j.[,Aa0zPivs7eg50!vMSgsA8T>DyyQNDG>[C$lHqR*J.^gN@%9W>G1vJs!7)VvDxT[d)yT3
D)*b+ZDzwMYsh2z7ZnkdyE<ec$,%DpFv]6>!zZrI9c~s_lEL>bINwf2z9,;kk955Y4Yq:ua%dAYNTp?U8LvF*Z7A,Vmi+MOn!SHO
7mD>Dj7lP5u>ua_~4Q>!hsV!Rv>!hYbNOp8o|2<;c$o[Q||wES0x^g(W*1(tknK7Z(M,P4N*<^uLHd~<hhz^tol;giNAB$p_[ciG
uK44?6fo7d4jnep<H:xN!y]L@||F%j[LJDc6PMS;DUN$.tZC6^Y:;81;c$%:pRY+hod30>1W,fCKsQV|S|ICbm]t%liL9DATVqax
5,j8H@wzT.7$3reuLW31Kf2gV3QiJqXj2%HqUquyRus*o4].=:PD4r%e~|?93,K,lKSEQcFr6g?A49Q7>zopM@^Ux@ozw6RW=)Rc
ODZlN2_QXnwUu]zxxoN$[j|zVCt%ROu*Onyai:MM+nVws)f!jUy|yhrF~xo$)=0gX;jeT2g(ZGRY1@noang(b8hx)OrE<|RyWAS~
7T$YMCV^iS_EdgAdqSWIZcPpHH<:jx.e9RK@5P0]dy2[w!HsE4]lc++^B<T~qVEttJ<41vw5)!F]%QAG9m*lJMNdOaJr](0C&$rr
[)>d4mgRK%@huZM)%kbXm0cb*[EjhH58.:ee;,bZ[Z)t3Fp&4+YiiPGZID(^00$O0Jw|RxE&JEa$9(*>@dwoKY*(@RH7Gbn,Inh=
3R,J,xBZH.4~o!Bl,*a%:0^6SI~mdojTzA*mP%whNwT8@17J?FX!y46pMsv^P5^l[HhZkO1~l:XFI0N5t*RUPBBa3$+aSXd[f$N)
S52Q1Xd_a&5pM1sCx,!Eg?(I:!H^w!vf&+3KvsMTuY&$!rAIM^O?KYgbLaxH<JdN_q9oqR1[zNbW.KbGMwzSWF2QilycL>_,7d3b
uGccxz&jq3Gy|A=0.^C(iS^e9~M34fyDg9k>tv@q&W]~lnY+?=+z.o&6UM*~zV(t]1Glc(W?vPSDJ>N7?Qv)<MD&CmbxGm3hwS+,
tkfB!8[7*tyT2K)bdvqY?>~%ym0~1.!Poj*sVG)^PJwL0|2vugW:4b)Bv1d!ocYa@:(FFOX423YBzSwkBP_K~!u(:qjwxnRgRV[k
^Ag011Az~czZB75h6rRV3q~q(%VD!O7^xUkdhL(BRJ4~FZs<+dfZ%]&>scS%qy_q(y+Zl,ibXTakb%J2$;~VExVWwy;SFHus[Ie_
:0JOF9$FE7llaIU|LGCAy%+YYtv%VFmOJ1e%T=D(NZ1U~qxxPW_vEKTqz~jTIy;^;&@<3LW?_DmCA0PA78&C81Lx1L=PoI=<?zA^
q*twup~08]GU123Az7<cl5$]u!MWibdpA9k;!hGvCt>;]J!BQDp|x]NKE>ZelMjf2*^m$vruze1P4R*m%T>RL,6)0IRW?Jw_Rax2
]79(XDd00itvjMmxyAn]Wu3~PpYJEcna9Wrj<(0c[<u~lWMcy,J)Z%1@8B=<;>^4NxJUb?.eppeT_y3<saE=vCJSCCiVA?4QkCHQ
Hf[K=*!q@Dgxsyh<gxddow|NK1W^r:)taj5a*(!9U8aI(Rt:^)u]rEW!4K0a[1Pn>4jreW3[?uMZ5A),Df!R=]eAhB)|gaSi1zii
*l&rVQIi>GZLFn=RO<Dx8s!*<Na)N0>3]2$NSb&IKR5rN.yh_$i;$8a0NutN_f9>?&r(?cX5y7%co%xr$bhkFpF40QpC*zxjQ1L+
qf@Ru)6&xIPv~*pYE;QPLt+GJ5c9Mm%,2,VS%XMcQ!b:X57>lEhC.BiRiTLXvbEA3n1]@O?H:Y4RweSt.0<sAyf2D)AeN5$i&GAN
64VC>myuHU)kG[*g9(8Q]4P6|y:~LRut4@tOE<DG>4)x7&>[G9rtXWZAVt>H(0MsERe8ybL7h:P],SwH05=AX*cItEq@&_QT!7nH
e[wl9(]<WEMe:iSqLO&OmIJcPteS^A)ph+Z(g,tb5*Twq2V3,ps5o^OqNhfVNk7iq_:VuM2E3<5[<*qKob[7v4,zBXir%+1(CMgu
9@<FAp@uz|y0Oz&%hcx[b<orIZr&ma;:cj)Ovr:1Vx<=Ci!4sqywH65hZe*:[sfo;[mnylpT[ajpp>F+G%(<waoJXhQUyf|0X@0Q
Q.hpChD;7Ld8a7zKj$wB[b7FGyl+j|<*s(S=7)0tfOE1YAPLgFQ!m<yYRtkvnG;4w,Zzc<gA:&29PfHMc$Q|nUtrjG@miA,tZjWF
[$4_YcW@ILajSnp@OV<@r^OMVV~REJ:rfc1nwQHH)!,VB%JP[feu)Fu&=~[[FC3I9wd^WD>zybX<1<!@[^2._YvkOq0S2&fOqx|6
:re&qgZq2?(%*h88fJZJf1u~W5Zlz6z:|9>|x2fDv@a4.([4RE~M697fRl~UD;Sxu7YPH=(]ApT*.dfbU7Uv;JJYnV0l(w:d^HSS
[H_C41=U!gQZsPd7nJtKAiPONu=*ICN2WMqsbMh:!7xV:%h5co[0vL~0c6y.Gu8J5Vsf>CL)QVIEpS=.(Ewj5!tw_Ak)U,Ec[O70
3E_HvYyuLQEa[3:J5OIiK9M=TTPoSgcx%mEs.ojdgyA16FS6(Eoh]rSw5WP&HmSoaEXb1*.m(dttm)S!ck5pN?,l0Zgk!*u$oulD
[maL@8lY]v55]z7xvFCUJUcO&2oS&)nh[B*N=%gx=8;l~9MHa)oWX>>dqFAQ(.cu*f0~jC^KtdsXWQipY7_V3_xRPxN,7p$SUPs8
ihKH=3CcJg[*aqc$;w&L^[oiCaO2fWIJopFMwI9KeT4bqS,n$KD_.EPyY=BJAFSwhkUd|TqQi.Xuk.QqmL$z%_JPz:y[V7VO;Iy@
,i[gYJ+p5g=Jh)h5t2cc:iiQbtlI|R&x,$Z;)lCbC+[_kaU;tgVLLk4Y4;axy[^a%s_?Md$0<1z+[4l]AN!7Ujas%%;.qZt0I@3,
P%y&$q?!U^ew~meH8vap8V7?^LVd>wMH(?^M<:V[ZQ&[]QwU189Z573cPLWi_XH2^7Uw+V,&@Lx,oGdTz;Y~;q(kJolr>P9G)J2r
T1]5OCnB)nw!&bp_tM$_X31nNN!0h4*X6OZ]uW<,QEf9rSxL*aOnHFiUI,R(n?Y^1[9lPsfuxJ>W~Vs:,xrm;e?y5IYNqv@WX]8x
UAfOOtaJ6L5eo*JfJ?R3>9|&VO(LGXJ,c%,*bL2nC,soiu4s!J=WQpee]cqt80.;C45lkHYko[(m3bZPCKN:4:kZ*U]3dVc]:gZM
Xb4u_~a__ik?[1$wJj7XpvQBF&&@rJg=g(WvQb=*1mci^IF$sQ5R0rjwp4G:3QQplKMKgYne<Ob=&f2UzeYb3MkhN@2E%jkNRozo
gE2^R2,c7^V]fM5Va;N[%5%fw|D<l)+!S,gtZ;0oYG)N;>kvdZ6r+$dzL_@LmgZD+v5HC+FYY5DU*=*ip9x6yZaXv0[,ef,A(JZi
vTF@fmmdch16?h@l2X)D<~&fo1PTP2vdTo<9ziO%0h>qdwC&2iA<q:tDj+Re,6W5OIVxOHnnz|ARI]PaASJdu]@vn9@Z9(rtU~Sq
W&^ObrA!.$H$hij9d|6*%5SB|529[u_j$?DLAD^yrFC]QX_93a6sElkcX<lela[g>yU>[R(O)$1yY$TM,lu5K4YrHL~T8[b^2w3w
lnHK+zF+jpyif&1dXoT2zqnvmRxJjT.@TV)rm,dyp&,fKdnR.O775PHH;g1)bPHA&y)*):I)UFzZ=$[v_QYq;8mBJ3R~kKMa;gOT
qCU0$bcd$tRx<zO~twiIU[$2xqA^dW4P^qa0*).1X%0%&]g&gkrnJ1IcZvPzq^vClb^!SLA5jaQpWhcV<i@_H~)Oq;ZR!uP?EIB|
!)4Hf~!Iy)+i1i3LOMe@+6xnmK2!dQw*NES|LelQ%otYV7QZf8t]24HIQ2G:^;LuF?O^]AyWkOnRZvH.1qmlV(~@GxbW2|ZWiFcv
XKgHd!5wEDE=gG~$9rs9.:HggOse5ha0!&:]N8zi3%8$QUoAKqWeA:78n!*NnH,;U3E$(l%f;bm<7^D;j4lz)RjmTem*YdbmBF1&
22XD.FGzO>f68ySdpt_YSQ&Hz)86+mEand.2XP%%Tz)=1QUgiM(2OL;jg=dHc?pXSrt:Cas$r^5>2!6kU:0ox<1QkzV>ZuHA6WlW
6=p=1r,RfPM$5s&xyqH=v_N8DU$n?@Wf@DWd*9.$fNWDo@i[Mh2649gkg~EvR&fQ20QQ+?V7j<BcyNlEYI>TFa?@5tl1j[_,f2t:
9bP[=A_|=,qo]Xnn[DhwP;(:1qYbxSmT<@^+c_FrkR4zK8Mq_O5)VoPC?+$.hl89lG2s:kGWvNyMpc*?BVSZzG4ptg,e,s4jZCp|
G,*s2f@@[ng34Zh,V)2wgvL_@d_!H@mo~KTkT3bPu)R,f^h3ZI8SNZT~MpgCqH_Q|gTvppjd>i:8s:Dfm6~7.lYLZ[X~Z[(~8)a^
0<18i>g589nou,BjSovSp=7|o*~AJH<(ek3fz+kNNf5;u|CL!Fn^OCv]:L&&)JD+UJ5<DO(eX_(13]@xsh?QO]bi_edWLxFag13Q
z[$hTRn!5pYV7iG>|Ob02@YUp0n=J9X3gGZs9pL6JwHEitZ$IUY6PP<Eg!wac=<_O~to&rF=,+;Mm?5PBJv>%GJUb2l4zUHvB41+
As^r(=g!(5*xH7,mp<iGf=M1Y.2ZW5B8Y93kDMKMT3IE44EU:Rel4f6!V[7SL>kZgYuUxLTCB@yz?_+VE&2csp+sbXugNF)h)(D(
.HX;0CHj>fH8,hx1,ycoxhh:ZM+<IlR85X@KoiQICpEr]YFAef5q_Ckg.5!NX)hf5q?a2XGDtqF_1djgiwi:q%.C4y3pHN=3,w>T
DS^WkL~(t=:9si5ql;TKKM<L5DpREtz1?+<%Gnt&7VBCO$swOsc3r%H,0~88u%%$HcP>C7Iu)<6q&(J6Kg9*Z2T37Y:yp173Srg)
+9,TH9C>:*oAdzPBP4wN;LG4ni.YtrV*dd.so0B.Ebw0T?~JAzu:Fpc$sjnz$Nv?tP><E>@)U4%J4^f$hS[HUo5d^PQn>Yr&)@OW
8k3$d+Xr=$nOWcfBX|eQx_TKgKd6mO04?^Rbtj4Z]*E$BkMA8e::K*g^gguobNJW!9uGrfMO4tY7WJaG,V18T1CUO%>@=gcop|Ho
02xdduvIb>>PMabCdV2:=Uiwf!>LA&XXeE>nAVqOxh;[=B(^Fg(z0@jHsMEt[W7,AB=O;u^W!^[644I7ix@Cgw4(zTRo50jmURja
k>%bO7:Ejv5!P%(2IFH4Em?%QH&oOoTzh[d|Ozwx,=g_&Oa[yb:4q]aI!@0Lmt[a[|*74W$wPIcYwY.euN=FcOFfb$(OE0fN$pdi
j4EYYlmyjCD,2Q&q<F6Onr^jr[+F[M],PA<)=bJnMXU50Je?+9_KyAC!p6oP;J;rz<rY+26vi%]EQL>zO9o[GAZoc@C5vsrSg0Be
qtQ9dQM&OD6x_7g:~sOIt*3A[M4d@+BBg[P^DND~%mHMV)v94:BgL)sgjk,YPG~+t]^WXTp=kD@q!b^r|CVI?QkZ29OZB0_|42(+
:e(DuTj=2p?4X5(cL^|bPqRmv_(QMfA,BN_HGT)*qWCBzO75Ak;A<6%56:3^U.W)gK[&sGtPKt7.|Rl=ILvj<wV23|~E_tg2kue0
ETa7uw%Y~xqlBnA=u;Ra(8X|d.$Ge;lG|jwjUj|wOh1bt2wt$&P7,u5RAItIrrZCHEx%!>wJ;^+xN^ZkL3G|hQBg1Uvc>*z0o_4;
iah^Ab4PI^8^<bT8w$cC[,J1+TF@6!87fCt?sd$,xlSrR(pij^]6=[ocrS!H:qByyG5bcs;5T.MXoUr!z6*q^PlUB|3zNzV^]:5E
Du<=itv:sks,Aq!+Cb*tbuzF*hs~5rQbBkE[R@[_?Gc^.G!vWPJ*Fhy!.=kEv($IOQP?p*y?cH5%0~J~68<_RE|Tb8Q<W)b!^uB|
3fbzi44i&^f)qxi7KQq4K9<M^0|d1XL&Y0<T)j]Ik9P(U[RZH1Us<xqbvWuukzIuDZU!LC<o;vEepl[&sQlU%h<vF3zd%+DVm5o=
*y>K!TZRt<%1FfoGmRP;Z1$e1Qj1ctV?eVSpF$BkOqTQFNMoyQ1M<.U|kqy^JM9*T6^3=Oq[+(XZaDDO?S:JKJSAz7d_]JQczD~~
ksL=l19(,ec,>qFf8%1|zEttK=lk+)bOhb6$j6RFfTc+BQpE7=T9uuwnUANjW@wy[2+@556kuoXe>Q%PDU;^XxM8W+w),&i27wes
xqC!:oUO@1BwC]a3M44475]7%V:7R7fk:oageXiSN[^W,y2x!CEavM7Ot(A,bGyQ.u|7WC:I(OHx;~9L;b$3@8i<AMc>Er.wO8$y
PpWFJjcGF^oaLflmZ7][sB7Ftce[FUSQF|tdei[cF0F:T;p)$EbjYN<Q0^>piLkZx_x@d:Tz@cBOHUQ>BxOxQx3lce8Yy61:D?&~
WHWr*n6FXv2NkW~t]%doHI[<akM|^,^2dWq%Kd1am2=:l[A:L;;V@?JpW,WH+]e0%>HyfY684TZ|<@hNSs|jm!%VT]+sPwWsz&_*
yU$,<YBW4qN_M7hb79mBgdbljpCgKqvA$yIY(y2pP%JsWL)YU^AmNyjvO?:+pxV38vsu)HRT,A!Fw4n(pPdU~]DjO|svd>G)5Rja
b+H;(2osQF=6wZnCe9N@BOv%iFH9r<)c3Cv0=Fy9kI(*Z+&[!8GfrBa@!B7nTH^SN!TW&h1+88nI&<o<1Tl!3.hOl>>vPv]]$m73
*P5:z|Q$[K)KOGNxUMdR&?=f,GJ:nMc28F+yQm57f<44fOJ;<9&<BkFOL_!9<+(Cg~PcJ2qp76II3pUgk&zq,ovx@ah$,@q~a,p9
:?X?>(1@e(y^*Md(0t!HECn=18)s1%LVD@IID4z@ir8s+|8fx)S+RLgqx!lp7^ve=cpe$Zf6[*wAx0tg)QCL43&4K)W^VXAxqjt4
&.sN>z7pS)@b%=nhU@?.bWE!]%CJZJNBFhy$?z&cDQ][6gWZ2ji;&>WdkV4N>gRS2N>(kPMO9?QF(ZJjP&FfC?[2?$&Vhvi~Hfj;
RmzE2NN_haP3Ne@|@8yT&d7dr!Empf$]A(,etmR7*w!*QC:@Cf@|Gd4omKB@)phZ[XgS%VmDruI%hr_W(q$9+eV?9uC*@^ldNrQI
j%9C$)?sf84CD42n1Xl|^Ow+@]%nj_6xikzR30T1D((mtk?MK1h!6VI+=m.qI_NQ>r?|g)Jv3+67Y$II+YJp3<rCp3au=aPcD[4+
ltwi2Y3S]q:LUg@;bFZ8|7E6Gp^T@<.FTT+@o]?E]>Qm1ItFj*8FvFkb*nyEcq;SuRh7+8YtDfLbOhWhUl$bwLB?j,l6C~]cp1fb
kX|TH50kz67d!*cEr]PZr,O"

end Addon.Unicode
